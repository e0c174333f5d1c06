import OidFed.Collection.Store
import OidFed.Lib.System

/-!
# Runs of the collection store (`core/src/entity-collection/store.ts`)

* `StoreHistory`: a store with what has been put into it: the last snapshot published for every
  anchor and under every identifier, and the last cursor under every identifier.
* `Published`: the invariant. The pointers to current snapshots do not dangle, none is shared, and
  the store holds what was put into it, unchanged.
-/

namespace OidFed

open Js

namespace CollectionStore

/-- The snapshot under an identifier. -/
def value? (store : CollectionStore) (id : String) : Option EntityCollectionSnapshot :=
  (store.snapshots.get? id).map (·.value)

/-- Every pointer leads to a snapshot of its own anchor. -/
def Points (store : CollectionStore) : Prop :=
  ∀ anchor id, store.current.get? anchor = some id →
    ∃ snapshot, store.value? id = some snapshot ∧ snapshot.trustAnchor = anchor

end CollectionStore

/-! ## Calls and what is known from them -/

inductive StoreCall where
  | publish (snapshot : EntityCollectionSnapshot)
  | getCurrent (anchor : String)
  | getSnapshot (id : String)
  | putCursor (id : String) (cursor : EntityCollectionCursor)
  | getCursor (id : String)

/-- A store, the last reading of its clock, and what has been put into it. -/
structure StoreHistory where
  store : CollectionStore := {}
  now : Rat
  /-- The last snapshot published for an anchor. -/
  latest : String → Option EntityCollectionSnapshot := fun _ => none
  /-- The last snapshot published under an identifier. -/
  published : String → Option EntityCollectionSnapshot := fun _ => none
  /-- The last cursor put under an identifier. -/
  put : String → Option EntityCollectionCursor := fun _ => none

/-- One call. Only `publish` reads the clock a second time. -/
def StoreHistory.call (options : CollectionStoreOptions) (H : StoreHistory) (now later : Rat) :
    StoreCall → StoreHistory
  | .publish snapshot =>
    match H.store.publish options now later snapshot with
    | (.ok (), store) =>
      { H with
        store
        now := later
        latest := Function.update H.latest snapshot.trustAnchor (some snapshot)
        published := Function.update H.published snapshot.id (some snapshot) }
    | (.error _, store) => { H with store, now := later }
  | .getCurrent anchor => { H with store := (H.store.getCurrent now anchor).2, now }
  | .getSnapshot id => { H with store := (H.store.getSnapshot now id).2, now }
  | .putCursor id cursor =>
    { H with
      store := H.store.putCursor options now id cursor
      now
      put := Function.update H.put id (some cursor) }
  | .getCursor id => { H with store := (H.store.getCursor now id).2, now }

/-- A new store and its calls, by a clock that does not go back. -/
def collectionStore (options : CollectionStoreOptions) : System where
  St := StoreHistory
  init H := ∃ now, H = { now }
  step H H' := ∃ now later call, H.now ≤ now ∧ now ≤ later ∧ H' = H.call options now later call

structure Published (options : CollectionStoreOptions) (H : StoreHistory) : Prop where
  points : H.store.Points
  current : ∀ anchor snapshot, H.latest anchor = some snapshot →
    ∃ id, H.store.current.get? anchor = some id ∧ H.store.value? id = some snapshot
  holds : H.store.Within (fun id value => H.published id = some value)
    fun id cursor => H.put id = some cursor
  snapshots : H.store.snapshots.keys.length ≤ options.maxSnapshots
  cursors : H.store.cursors.keys.length ≤ options.maxCursors

namespace CollectionStore

variable {options : CollectionStoreOptions} {store : CollectionStore} {now later : Rat}

/-! ## Single operations -/

theorem get?_withoutEvicted (snapshots : Dict String StoredSnapshot) (e : Option String)
    (id : String) :
    (withoutEvicted snapshots e).get? id = if e = some id then none else snapshots.get? id := by
  cases e with
  | none => simp [withoutEvicted]
  | some id' => simp only [withoutEvicted, Dict.get?_erase, Option.some.injEq, eq_comm]

/-- How long a snapshot is retained does not change it. -/
theorem value_retainUntil (snapshots : Dict String StoredSnapshot) (id k : String) (t : Rat) :
    ((retainUntil snapshots id t).get? k).map (·.value) = (snapshots.get? k).map (·.value) := by
  unfold retainUntil
  split
  · rfl
  · rename_i s hs
    rw [Dict.get?_set]
    split
    · rename_i hk
      rw [hk, hs]
      rfl
    · rfl

theorem keys_retainUntil (snapshots : Dict String StoredSnapshot) (id : String) (t : Rat) :
    (retainUntil snapshots id t).keys = snapshots.keys := by
  unfold retainUntil
  split
  · rfl
  · rename_i s hs
    rw [Dict.keys_set, if_pos ((Dict.mem_keys_iff _ _).mpr ⟨s, hs⟩)]

/-- A current snapshot is not pruned. -/
theorem value?_prune_current (h : store.Points) {anchor id : String}
    (hcurrent : store.current.get? anchor = some id) :
    (store.prune now).value? id = store.value? id := by
  obtain ⟨snapshot, hvalue, hanchor⟩ := h anchor id hcurrent
  obtain ⟨s, hs, hval⟩ := Option.map_eq_some_iff.mp hvalue
  have hkept : (store.prune now).snapshots.get? id = some s := by
    refine Dict.get?_filter_eq_some.mpr ⟨hs, ?_⟩
    simp [hval, hanchor, hcurrent]
  rw [value?, value?, hkept, hs]

theorem Points.prune (h : store.Points) (now : Rat) : (store.prune now).Points := by
  intro anchor id hcurrent
  obtain ⟨snapshot, hvalue, hanchor⟩ := h anchor id hcurrent
  exact ⟨snapshot, (value?_prune_current h hcurrent).trans hvalue, hanchor⟩

/-- Pruning again, later, is pruning later. -/
theorem prune_prune {now' : Rat} (hnow : now ≤ now') (store : CollectionStore) :
    (store.prune now).prune now' = store.prune now' := by
  have hcursors : ∀ p : String × EntityCollectionCursor,
      (decide (now' < p.2.expiresAt) && decide (now < p.2.expiresAt)) =
        decide (now' < p.2.expiresAt) := by
    intro p
    by_cases hlive : now' < p.2.expiresAt
    · simp [hlive, hnow.trans_lt hlive]
    · simp [hlive]
  have hretained : ∀ o : Option Rat, (o.all fun t => decide (now' < t)) = true →
      (o.all fun t => decide (now < t)) = true := by
    intro o ho
    cases o with
    | none => rfl
    | some t =>
      simp only [Option.all_some, decide_eq_true_eq] at ho ⊢
      exact hnow.trans_lt ho
  simp only [CollectionStore.prune, Dict.filter, CollectionStore.mk.injEq, Dict.mk.injEq,
    List.filter_filter, true_and]
  refine ⟨List.filter_congr fun p _ => ?_, List.filter_congr fun p _ => hcursors p⟩
  rw [Bool.eq_iff_iff]
  simp only [Bool.and_eq_true, Bool.or_eq_true]
  constructor
  · exact fun h => h.1
  · exact fun h => ⟨h, h.imp_right (hretained _)⟩

theorem evicted_eq_ok (h : store.Points) {anchor : String} {e : Option String}
    (he : store.evicted options anchor = .ok e) :
    (e = none ∧ store.snapshots.keys.length < options.maxSnapshots) ∨
      ∃ id, e = some id ∧ id ∈ store.snapshots.keys ∧
        ∀ anchor', store.current.get? anchor' = some id → anchor' = anchor := by
  unfold CollectionStore.evicted at he
  split at he
  · right
    split at he
    · -- a superseded snapshot is nobody's current one
      rename_i candidate hfind
      obtain rfl := Except.ok.inj he
      have hmem := List.mem_of_find?_eq_some hfind
      have hnot := List.find?_some hfind
      have hget := Dict.get?_of_mem hmem
      refine ⟨candidate.1, rfl, (Dict.mem_keys_iff _ _).mpr ⟨_, hget⟩, fun anchor' hcurrent => ?_⟩
      obtain ⟨snapshot, hvalue, hanchor⟩ := h anchor' candidate.1 hcurrent
      rw [value?, hget] at hvalue
      obtain rfl := Option.some.inj hvalue
      rw [hanchor, hcurrent] at hnot
      simp at hnot
    · split at he
      · cases he
      · -- its own current snapshot makes room
        rename_i id hcurrent
        obtain rfl := Except.ok.inj he
        obtain ⟨snapshot, hvalue, hanchor⟩ := h anchor id hcurrent
        obtain ⟨s, hs, -⟩ := Option.map_eq_some_iff.mp hvalue
        refine ⟨id, rfl, (Dict.mem_keys_iff _ _).mpr ⟨s, hs⟩, fun anchor' hcurrent' => ?_⟩
        obtain ⟨snapshot', hvalue', hanchor'⟩ := h anchor' id hcurrent'
        rw [hvalue] at hvalue'
        rw [← hanchor, ← hanchor', Option.some.inj hvalue']
  · rename_i hroom
    obtain rfl := Except.ok.inj he
    exact .inl ⟨rfl, not_le.mp hroom⟩

/-- What `publish` does: it fails and only prunes, or it puts the snapshot in the place of an
evicted one, if room is needed, and points to it. -/
theorem publish_cases (options : CollectionStoreOptions) (now later : Rat)
    (snapshot : EntityCollectionSnapshot) (store : CollectionStore) :
    (∃ e, store.publish options now later snapshot = (.error e, store.prune now)) ∨
      ∃ e store', store.publish options now later snapshot = (.ok (), store') ∧
        (store.prune now).evicted options snapshot.trustAnchor = .ok e ∧
        snapshot.id ∉ (store.prune now).snapshots.keys ∧
        (∀ id, store'.value? id = if id = snapshot.id then some snapshot
          else if e = some id then none else (store.prune now).value? id) ∧
        store'.snapshots.keys = (withoutEvicted (store.prune now).snapshots e).keys ++ [snapshot.id] ∧
        store'.current = store.current.set snapshot.trustAnchor snapshot.id ∧
        store'.cursors = (store.prune now).cursors := by
  unfold publish
  simp only
  split
  · exact .inl ⟨_, rfl⟩
  · rename_i hfresh
    have hnew : snapshot.id ∉ (store.prune now).snapshots.keys := by
      intro hmem
      obtain ⟨s, hs⟩ := (Dict.mem_keys_iff _ _).mp hmem
      exact hfresh (by rw [hs]; rfl)
    split
    · exact .inl ⟨_, rfl⟩
    · rename_i e he
      refine .inr ⟨e, _, rfl, he, hnew, fun id => ?_, ?_, rfl, rfl⟩
      · simp only [value?, Dict.get?_set]
        split
        · rfl
        · rw [value_retainUntil, get?_withoutEvicted]
          split <;> rfl
      · have hgone : snapshot.id ∉ (withoutEvicted (store.prune now).snapshots e).keys := by
          intro hmem
          obtain ⟨s, hs⟩ := (Dict.mem_keys_iff _ _).mp hmem
          rw [get?_withoutEvicted] at hs
          split at hs
          · cases hs
          · exact hnew ((Dict.mem_keys_iff _ _).mpr ⟨s, hs⟩)
        rw [Dict.keys_set, keys_retainUntil, if_neg hgone]

end CollectionStore

section Steps

open CollectionStore

variable {options : CollectionStoreOptions} {H : StoreHistory} {now later : Rat}

theorem published_init (now : Rat) : Published options { now } where
  points := nofun
  current := nofun
  holds := ⟨nofun, nofun⟩
  snapshots := Nat.zero_le _
  cursors := Nat.zero_le _

theorem Published.prune (h : Published options H) (now t : Rat) :
    Published options { H with store := H.store.prune now, now := t } where
  points := h.points.prune now
  current anchor snapshot hlatest := by
    obtain ⟨id, hcurrent, hvalue⟩ := h.current anchor snapshot hlatest
    exact ⟨id, hcurrent, (value?_prune_current h.points hcurrent).trans hvalue⟩
  holds := h.holds.prune now
  snapshots := (Dict.keys_filter_length_le _ _).trans h.snapshots
  cursors := (Dict.keys_filter_length_le _ _).trans h.cursors

theorem Published.publish (h : Published options H) (now later : Rat)
    (snapshot : EntityCollectionSnapshot) :
    Published options (H.call options now later (.publish snapshot)) := by
  have hpruned := h.prune now later
  simp only [StoreHistory.call]
  rcases publish_cases options now later snapshot H.store with ⟨e, hpublish⟩ |
    ⟨e, store', hpublish, hevicted, hnew, hvalue, hkeys, hcurrent, hcursors⟩
  · rw [hpublish]
    exact hpruned
  · rw [hpublish]
    have hroom := evicted_eq_ok (hpruned.points) hevicted
    -- the snapshots of other anchors that are current stay
    have hother : ∀ anchor id, anchor ≠ snapshot.trustAnchor →
        H.store.current.get? anchor = some id →
        store'.value? id = (H.store.prune now).value? id := by
      intro anchor id hanchor hget
      obtain ⟨s, hs, -⟩ := hpruned.points anchor id hget
      obtain ⟨stored, hstored, -⟩ := Option.map_eq_some_iff.mp hs
      have hid : id ≠ snapshot.id := by
        rintro rfl
        exact hnew ((Dict.mem_keys_iff _ _).mpr ⟨stored, hstored⟩)
      have hkept : e ≠ some id := by
        rintro rfl
        rcases hroom with ⟨hnone, -⟩ | ⟨id', hid', -, howner⟩
        · cases hnone
        · obtain rfl := Option.some.inj hid'
          exact hanchor (howner anchor hget)
      rw [hvalue, if_neg hid, if_neg hkept]
    refine ⟨fun anchor id hget => ?_, fun anchor latest hlatest => ?_, ⟨fun id s hs => ?_,
      fun id c hc => ?_⟩, ?_, ?_⟩
    · rw [hcurrent, Dict.get?_set] at hget
      split at hget
      · rename_i hanchor
        obtain rfl := Option.some.inj hget
        exact ⟨snapshot, by rw [hvalue, if_pos rfl], hanchor.symm⟩
      · rename_i hanchor
        obtain ⟨s, hs, howner⟩ := hpruned.points anchor id hget
        exact ⟨s, (hother anchor id hanchor hget).trans hs, howner⟩
    · simp only [Function.update_apply] at hlatest
      rw [hcurrent]
      split at hlatest
      · rename_i hanchor
        obtain rfl := Option.some.inj hlatest
        exact ⟨snapshot.id, by rw [hanchor, Dict.get?_set_self], by rw [hvalue, if_pos rfl]⟩
      · rename_i hanchor
        obtain ⟨id, hget, hs⟩ := hpruned.current anchor latest hlatest
        exact ⟨id, by rw [Dict.get?_set_ne _ _ hanchor]; exact hget,
          (hother anchor id hanchor hget).trans hs⟩
    · have hs' : store'.value? id = some s.value := by rw [value?, hs]; rfl
      rw [hvalue] at hs'
      simp only [Function.update_apply]
      split at hs'
      · rename_i hid
        rw [if_pos hid]
        exact hs'
      · rename_i hid
        rw [if_neg hid]
        split at hs'
        · cases hs'
        · obtain ⟨stored, hstored, hval⟩ := Option.map_eq_some_iff.mp hs'
          rw [← hval]
          exact hpruned.holds.values id stored hstored
    · rw [hcursors] at hc
      exact hpruned.holds.cursors id c hc
    · have hle : (H.store.prune now).snapshots.keys.length ≤ options.maxSnapshots :=
        hpruned.snapshots
      simp only [hkeys, List.length_append, List.length_singleton]
      rcases hroom with ⟨rfl, hlt⟩ | ⟨id, rfl, hmem, -⟩
      · exact hlt
      · have hpos := List.length_pos_of_mem hmem
        simp only [withoutEvicted, Dict.keys_erase, List.length_erase_of_mem hmem]
        simp only at hpos
        omega
    · rw [hcursors]
      exact hpruned.cursors

/-- A full store drops its first cursor. -/
theorem Published.putCursor (h : Published options H) (now later : Rat) (id : String)
    (cursor : EntityCollectionCursor) :
    Published options (H.call options now later (.putCursor id cursor)) := by
  have hpruned := h.prune now now
  refine ⟨hpruned.points, hpruned.current, ⟨hpruned.holds.values, fun k c hc => ?_⟩,
    hpruned.snapshots, ?_⟩
  · simp only [StoreHistory.call, CollectionStore.putCursor, Dict.get?_set] at hc
    simp only [StoreHistory.call, Function.update_apply]
    split at hc
    · rename_i hk
      rw [if_pos hk]
      exact hc
    · rename_i hk
      rw [if_neg hk]
      split at hc
      · rw [Dict.get?_erase] at hc
        split at hc
        · cases hc
        · exact hpruned.holds.cursors k c hc
      · exact hpruned.holds.cursors k c hc
  · have hle : (H.store.prune now).cursors.keys.length ≤ options.maxCursors := hpruned.cursors
    have hmax := options.maxCursors.pos
    have hroom : (if (options.maxCursors : Nat) ≤ (H.store.prune now).cursors.keys.length then
        (H.store.prune now).cursors.erase (((H.store.prune now).cursors.keys.head?).getD "")
      else (H.store.prune now).cursors).keys.length < options.maxCursors := by
      split
      · cases hkeys : (H.store.prune now).cursors.keys with
        | nil => simp [Dict.keys_erase, hkeys]
        | cons first rest =>
          rw [hkeys] at hle
          simp only [Dict.keys_erase, hkeys, List.head?_cons, Option.getD_some,
            List.erase_cons_head]
          simp only [List.length_cons] at hle
          omega
      · rename_i hlt
        exact not_le.mp hlt
    exact Dict.length_set_le hroom id cursor

/-- Every call keeps the invariant. -/
theorem Published.call (h : Published options H) (now later : Rat) (call : StoreCall) :
    Published options (H.call options now later call) := by
  cases call with
  | publish snapshot => exact h.publish now later snapshot
  | getCurrent anchor => exact h.prune now now
  | getSnapshot id => exact h.prune now now
  | putCursor id cursor => exact h.putCursor now later id cursor
  | getCursor id => exact h.prune now now

theorem published_of_reach (h : (collectionStore options).Reach H) : Published options H :=
  System.Reach.invariant (S := collectionStore options) (I := Published options)
    (fun _ ⟨now, hinit⟩ => hinit ▸ published_init now)
    (fun _ _ hI ⟨now, later, call, _, _, hstep⟩ => hstep ▸ hI.call now later call) h

/-! ## What is returned -/

theorem Published.getCurrent (h : Published options H) {anchor : String}
    {snapshot : EntityCollectionSnapshot} (hlatest : H.latest anchor = some snapshot) (now : Rat) :
    (H.store.getCurrent now anchor).1 = some snapshot := by
  obtain ⟨id, hcurrent, hvalue⟩ := h.current anchor snapshot hlatest
  have hid : H.store.currentId anchor = id := by rw [currentId, hcurrent, Option.getD_some]
  rw [CollectionStore.getCurrent, hid]
  exact (value?_prune_current h.points hcurrent).trans hvalue

/-- After a `publish` that failed, every anchor's current snapshot is the one before. -/
theorem getCurrent_failed {store store' : CollectionStore} {snapshot : EntityCollectionSnapshot}
    {e : String} (hpublish : store.publish options now later snapshot = (.error e, store'))
    {now' : Rat} (hnow : now ≤ now') (anchor : String) :
    (store'.getCurrent now' anchor).1 = (store.getCurrent now' anchor).1 := by
  rcases publish_cases options now later snapshot store with ⟨e', hfailed⟩ |
    ⟨_, _, hok, -⟩
  · obtain ⟨-, rfl⟩ := Prod.mk.inj (hfailed.symm.trans hpublish)
    simp only [CollectionStore.getCurrent, CollectionStore.getSnapshot, prune_prune hnow]
    rfl
  · cases (Prod.mk.inj (hok.symm.trans hpublish)).1

theorem getCursor_live {store : CollectionStore} {id : String} {cursor : EntityCollectionCursor}
    (h : (store.getCursor now id).1 = some cursor) : now < cursor.expiresAt := by
  have hkept := (Dict.get?_filter_eq_some.mp h).2
  exact of_decide_eq_true hkept

/-- In every reachable state: the current snapshot of an anchor is the one last published for it,
the limits hold, a snapshot is returned as it was published, a `publish` that fails leaves every
anchor's current snapshot, and no expired cursor is returned. -/
theorem collectionStore_current (h : (collectionStore options).Reach H) :
    (∀ anchor snapshot, H.latest anchor = some snapshot → ∀ now,
        (H.store.getCurrent now anchor).1 = some snapshot) ∧
      (H.store.snapshots.keys.length ≤ options.maxSnapshots ∧
        H.store.cursors.keys.length ≤ options.maxCursors) ∧
      (∀ now id snapshot, (H.store.getSnapshot now id).1 = some snapshot →
        H.published id = some snapshot) ∧
      (∀ now later snapshot e store',
        H.store.publish options now later snapshot = (.error e, store') → ∀ now', now ≤ now' →
          ∀ anchor, (store'.getCurrent now' anchor).1 = (H.store.getCurrent now' anchor).1) ∧
      ∀ now id cursor, (H.store.getCursor now id).1 = some cursor →
        H.put id = some cursor ∧ now < cursor.expiresAt := by
  have hpublished := published_of_reach h
  refine ⟨fun anchor snapshot hlatest now => hpublished.getCurrent hlatest now,
    ⟨hpublished.snapshots, hpublished.cursors⟩, fun now id snapshot hget => ?_,
    fun now later snapshot e store' hpublish now' hnow anchor =>
      getCurrent_failed hpublish hnow anchor, fun now id cursor hget => ?_⟩
  · exact hpublished.holds.getSnapshot hget
  · exact ⟨hpublished.holds.getCursor hget, getCursor_live hget⟩

end Steps

/-- Room for one snapshot, which a second one for the same anchor takes over. -/
def replacedStore (options : CollectionStoreOptions := { maxSnapshots := 1 }) : StoreHistory :=
  (({ now := 0 } : StoreHistory).call options 0 0
    (.publish { id := "1", trustAnchor := "https://ta", lastUpdated := 0, entries := [] })).call
    options 5 5
    (.publish { id := "2", trustAnchor := "https://ta", lastUpdated := 5, entries := [] })

/-- A third one, for another anchor, does not find room. -/
theorem replacedStore_current :
    (replacedStore.store.getCurrent 9 "https://ta").1 =
        some { id := "2", trustAnchor := "https://ta", lastUpdated := 5, entries := [] } ∧
      ∀ now' anchor, 9 ≤ now' →
        ((replacedStore.store.publish { maxSnapshots := 1 } 9 9
          { id := "3", trustAnchor := "https://tb", lastUpdated := 9, entries := [] }).2.getCurrent
            now' anchor).1 = (replacedStore.store.getCurrent now' anchor).1 := by
  have hinit : (collectionStore { maxSnapshots := 1 }).Reach ({ now := 0 } : StoreHistory) :=
    .init ⟨0, rfl⟩
  have hfirst := hinit.step ⟨0, 0, .publish
    { id := "1", trustAnchor := "https://ta", lastUpdated := 0, entries := [] }, le_refl _,
    le_refl _, rfl⟩
  have hreach : (collectionStore { maxSnapshots := 1 }).Reach replacedStore :=
    hfirst.step ⟨5, 5, .publish
      { id := "2", trustAnchor := "https://ta", lastUpdated := 5, entries := [] },
      by decide +kernel, le_refl _, rfl⟩
  obtain ⟨hcurrent, -, -, hfailed, -⟩ := collectionStore_current hreach
  have hpublish : replacedStore.store.publish { maxSnapshots := 1 } 9 9
      { id := "3", trustAnchor := "https://tb", lastUpdated := 9, entries := [] } =
      (.error "Collection snapshot capacity exhausted", replacedStore.store) := by
    decide +kernel
  exact ⟨hcurrent "https://ta" _ (by decide +kernel) 9, fun now' anchor hnow =>
    hfailed 9 9 _ _ _ (Prod.ext (congrArg Prod.fst hpublish) rfl) now' hnow anchor⟩

end OidFed
