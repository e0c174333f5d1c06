import OidFed.Collection.Query
import OidFed.Lib.System

/-!
# Pages of a collection (`core/src/entity-collection/service.ts`)

A client follows the cursors of `EntityCollectionService.query`. Between the calls of the store that
one query makes, the clock goes on, refreshes publish snapshots, and other queries put cursors and
let the store drop what has expired.

* `CollectionStep`: a step of the traversal, or of the others.
* `Keeps`: what the others do to the store. What does not matter for fresh identifiers is kept.
* `collection_stable`: in every run, the pages are the first of the entities that were eligible at
  the first request, in their order, and all of them when the traversal is finished; every page that
  goes on has entities unless none were asked for, and no page is too large.
-/

namespace OidFed

open Js

/-- The first answer of a traversal: the snapshot, the request, and its time. -/
structure CollectionOrigin where
  snapshot : EntityCollectionSnapshot
  request : EntityCollectionRequest
  now : Rat

structure ServedPage where
  request : EntityCollectionRequest
  response : EntityCollectionResponse

/-- Where a traversal is. -/
inductive CollectionPhase where
  /-- The next request has no `from`, or the `next` of the last page. -/
  | between (start : Option String)
  | asked (request : EntityCollectionRequest) (now : Rat)
  | reading (request : EntityCollectionRequest) (now : Rat) (cursor : Option EntityCollectionCursor)
  | filling (request : EntityCollectionRequest) (now : Rat) (cursor : Option EntityCollectionCursor)
      (found : Option EntityCollectionSnapshot)
  | finished
  deriving DecidableEq

/-- The clock, the store, the identifiers that have been taken, and the traversal. -/
structure CollectionState where
  now : Rat
  store : CollectionStore := {}
  ids : List String := []
  phase : CollectionPhase := .between none
  origin : Option CollectionOrigin := none
  served : List ServedPage := []

namespace CollectionState

section Steps

variable (config : EntityCollectionConfig) (host : CollectionHost)
  (options : CollectionStoreOptions) (S : CollectionState)

def findCursor (request : EntityCollectionRequest) (now : Rat) : CollectionState :=
  let (cursor, store) :=
    match request.start with
    | none => (none, S.store)
    | some id => S.store.getCursor S.now id
  match checkCursor host request now cursor with
  | .error _ => { S with store := store, phase := .between request.start }
  | .ok cursor => { S with store := store, phase := .reading request now cursor }

def findSnapshot (request : EntityCollectionRequest) (now : Rat)
    (cursor : Option EntityCollectionCursor) : CollectionState :=
  let (found, store) :=
    match cursor with
    | some cursor => S.store.getSnapshot S.now cursor.snapshotId
    | none => S.store.getCurrent S.now request.anchor
  { S with store := store, phase := .filling request now cursor found }

def answer (request : EntityCollectionRequest) (now : Rat) (cursor : Option EntityCollectionCursor)
    (found : Option EntityCollectionSnapshot) (uuid : Uuid) : CollectionState :=
  match collectionPage config host request now cursor found with
  | .error _ => { S with phase := .between request.start }
  | .ok (page, snapshot, none) =>
    { S with
      phase := .finished
      origin := S.origin.or (some ⟨snapshot, request, now⟩)
      served := S.served ++ [⟨request, ⟨page, some snapshot.lastUpdated, none⟩⟩] }
  | .ok (page, snapshot, some next) =>
    { S with
      store := S.store.putCursor options S.now uuid.text next
      ids := uuid.text :: S.ids
      phase := .between (some uuid.text)
      origin := S.origin.or (some ⟨snapshot, request, now⟩)
      served := S.served ++ [⟨request, ⟨page, some snapshot.lastUpdated, some uuid.text⟩⟩] }

end Steps

end CollectionState

section Traversal

variable (config : EntityCollectionConfig) (host : CollectionHost)
  (options : CollectionStoreOptions)

/-- The steps of a traversal, among those of others. A request that is refused before the store is
asked, or answered without it, leaves the traversal where it is. -/
inductive CollectionStep : CollectionState → CollectionState → Prop
  | tick {S : CollectionState} {t : Rat} : S.now ≤ t → CollectionStep S { S with now := t }
  | publish {S : CollectionState} (snapshot : EntityCollectionSnapshot) : snapshot.id ∉ S.ids →
      CollectionStep S { S with
        store := (S.store.publish options S.now S.now snapshot).2
        ids := snapshot.id :: S.ids }
  | putCursor {S : CollectionState} {id : String} (cursor : EntityCollectionCursor) : id ∉ S.ids →
      CollectionStep S { S with
        store := S.store.putCursor options S.now id cursor
        ids := id :: S.ids }
  | prune {S : CollectionState} : CollectionStep S { S with store := S.store.prune S.now }
  | query {S : CollectionState} {request effective : EntityCollectionRequest} :
      S.phase = .between request.start → openQuery config host request = .ok (some effective) →
        CollectionStep S { S with phase := .asked effective S.now }
  | findCursor {S : CollectionState} {request : EntityCollectionRequest} {now : Rat} :
      S.phase = .asked request now → CollectionStep S (S.findCursor host request now)
  | findSnapshot {S : CollectionState} {request : EntityCollectionRequest} {now : Rat}
      {cursor : Option EntityCollectionCursor} :
      S.phase = .reading request now cursor →
        CollectionStep S (S.findSnapshot request now cursor)
  | answer {S : CollectionState} {request : EntityCollectionRequest} {now : Rat}
      {cursor : Option EntityCollectionCursor} {found : Option EntityCollectionSnapshot}
      {uuid : Uuid} : S.phase = .filling request now cursor found → uuid.text ∉ S.ids →
        CollectionStep S (S.answer config host options request now cursor found uuid)

def collectionTraversal : System where
  St := CollectionState
  init S := ∃ now, S = { now := now }
  step := CollectionStep config host options

/-! ## What is known of a traversal -/

/-- The entries that were eligible at the first request. -/
def CollectionOrigin.entries (origin : CollectionOrigin) : List CollectionEntry :=
  eligibleEntries host origin.request origin.now origin.snapshot

/-- What the first request shows of them. -/
def CollectionOrigin.shown (origin : CollectionOrigin) : List Json :=
  (origin.entries host).map fun entry =>
    projectCollectionEntity host origin.request (supportedInfoClaims config) entry.entity

/-- A cursor goes on after a number of entities. -/
structure CollectionOrigin.Continues (origin : CollectionOrigin) (returned : Nat)
    (cursor : EntityCollectionCursor) : Prop where
  snapshotId : cursor.snapshotId = origin.snapshot.id
  context : cursor.context = collectionContext host origin.request
  index : cursor.index = returned
  expiresAt : cursor.expiresAt ≤ validUntil config host origin.request origin.now origin.snapshot

namespace CollectionState

def returned (S : CollectionState) : List Json := S.served.flatMap (·.response.entities)

/-- The snapshot is the only one under its identifier, now and later. -/
structure Known (S : CollectionState) (snapshot : EntityCollectionSnapshot) : Prop where
  used : snapshot.id ∈ S.ids
  only : S.store.Within (fun id v => id = snapshot.id → v = snapshot) fun _ _ => True

/-- Under an identifier there is a cursor that goes on, or none any more. -/
structure Goes (S : CollectionState) (origin : CollectionOrigin) (id : String) : Prop where
  snapshot : S.Known origin.snapshot
  used : id ∈ S.ids
  only : S.store.Within (fun _ _ => True) fun id' cursor =>
    id' = id → origin.Continues config host S.returned.length cursor

/-- The traversal goes on with a `from`. -/
def At (S : CollectionState) : Option String → Prop
  | none => S.origin = none ∧ S.served = []
  | some id => ∃ origin, S.origin = some origin ∧ S.Goes config host origin id

/-- The time of a request. -/
def Since (S : CollectionState) (now : Rat) : Prop :=
  now ≤ S.now ∧ ∀ origin, S.origin = some origin → origin.now ≤ now

/-- The cursor of a request continues the traversal, and has not expired. -/
def Resumes (S : CollectionState) (request : EntityCollectionRequest) (now : Rat) :
    Option EntityCollectionCursor → Prop
  | none => request.start = none
  | some cursor => ∃ origin, S.origin = some origin ∧
      origin.Continues config host S.returned.length cursor ∧
      cursor.context = collectionContext host request ∧ now < cursor.expiresAt

/-- The snapshot of a request is that of the traversal. -/
def Finds (S : CollectionState) (cursor : Option EntityCollectionCursor)
    (snapshot : EntityCollectionSnapshot) : Prop :=
  S.Known snapshot ∧ (cursor.isSome → ∃ origin, S.origin = some origin ∧ origin.snapshot = snapshot)

def PhaseHolds (S : CollectionState) : CollectionPhase → Prop
  | .between start => S.At config host start
  | .asked request now => S.At config host request.start ∧ S.Since now
  | .reading request now cursor => S.At config host request.start ∧ S.Since now ∧
      S.Resumes config host request now cursor
  | .filling request now cursor found => S.At config host request.start ∧ S.Since now ∧
      S.Resumes config host request now cursor ∧ ∀ snapshot, found = some snapshot →
        S.Finds cursor snapshot
  | .finished => ∃ origin, S.origin = some origin ∧ S.returned = origin.shown config host

end CollectionState

/-- A page goes on only if it has entities, unless none were asked for, and is not too large. -/
structure ServedPage.Fits (page : ServedPage) : Prop where
  progress : page.request.limit ≠ some 0 → page.response.next.isSome → page.response.entities ≠ []
  size : page.response.entities ≠ [] →
    jsonBytes host page.response.toJson ≤ config.maxResponseBytes

namespace CollectionState

structure Followed (S : CollectionState) : Prop where
  known : S.store.Within (fun id v => v.id = id ∧ id ∈ S.ids) fun id _ => id ∈ S.ids
  pages : ∀ page ∈ S.served, page.Fits config host
  part : ∀ origin, S.origin = some origin → origin.now ≤ S.now ∧
    S.returned = (origin.shown config host).take S.returned.length
  phase : S.PhaseHolds config host S.phase

/-! ## Steps of the others -/

/-- What does not matter for fresh identifiers is kept. -/
structure Keeps (S S' : CollectionState) : Prop where
  ids : ∀ id ∈ S.ids, id ∈ S'.ids
  within : ∀ (values : String → EntityCollectionSnapshot → Prop)
    (cursors : String → EntityCollectionCursor → Prop),
    (∀ id ∈ S'.ids, id ∉ S.ids → ∀ v, v.id = id → values id v) →
    (∀ id ∈ S'.ids, id ∉ S.ids → ∀ c, cursors id c) →
    S.store.Within values cursors → S'.store.Within values cursors

section Keeps

variable {config : EntityCollectionConfig} {host : CollectionHost}
  {options : CollectionStoreOptions} {S S' : CollectionState}

theorem Keeps.of_store (hids : S'.ids = S.ids) (hstore : S'.store = S.store ∨
    ∃ t, S'.store = S.store.prune t) : Keeps S S' := by
  refine ⟨fun id hid => by rw [hids]; exact hid, fun values cursors _ _ h => ?_⟩
  rcases hstore with hstore | ⟨t, hstore⟩
  · rw [hstore]
    exact h
  · rw [hstore]
    exact h.prune t

theorem Keeps.publish {snapshot : EntityCollectionSnapshot} (hfresh : snapshot.id ∉ S.ids) :
    Keeps S { S with
      store := (S.store.publish options S.now S.now snapshot).2
      ids := snapshot.id :: S.ids } :=
  ⟨fun _ hid => .tail _ hid, fun _ _ hvalues _ h =>
    h.publish options S.now S.now (hvalues snapshot.id (.head _) hfresh snapshot rfl)⟩

theorem Keeps.putCursor {id : String} (cursor : EntityCollectionCursor) (hfresh : id ∉ S.ids)
    (hids : S'.ids = id :: S.ids)
    (hstore : S'.store = S.store.putCursor options S.now id cursor) : Keeps S S' := by
  refine ⟨fun _ hid => hids ▸ .tail _ hid, fun _ _ _ hcursors h => ?_⟩
  rw [hstore]
  exact h.putCursor options S.now (hcursors id (hids ▸ .head _) hfresh cursor)

theorem Known.keep {snapshot : EntityCollectionSnapshot} (h : S.Known snapshot)
    (hk : Keeps S S') : S'.Known snapshot := by
  refine ⟨hk.ids _ h.used, hk.within _ _ ?_ (fun _ _ _ _ => trivial) h.only⟩
  rintro id - hfresh v - rfl
  exact absurd h.used hfresh

theorem Goes.keep {origin : CollectionOrigin} {id : String} (h : S.Goes config host origin id)
    (hk : Keeps S S') (hserved : S'.served = S.served) : S'.Goes config host origin id := by
  have hreturned : S'.returned = S.returned := by rw [returned, hserved, returned]
  refine ⟨h.snapshot.keep hk, hk.ids _ h.used, ?_⟩
  rw [hreturned]
  refine hk.within _ _ (fun _ _ _ _ _ => trivial) ?_ h.only
  rintro id' - hfresh c rfl
  exact absurd h.used hfresh

theorem At.keep {start : Option String} (h : S.At config host start) (hk : Keeps S S')
    (horigin : S'.origin = S.origin) (hserved : S'.served = S.served) :
    S'.At config host start := by
  cases start with
  | none => exact ⟨horigin.trans h.1, hserved.trans h.2⟩
  | some id =>
    obtain ⟨origin, ho, hgoes⟩ := h
    exact ⟨origin, horigin.trans ho, hgoes.keep hk hserved⟩

theorem known_keep (h : S.store.Within (fun id v => v.id = id ∧ id ∈ S.ids) fun id _ => id ∈ S.ids)
    (hk : Keeps S S') :
    S'.store.Within (fun id v => v.id = id ∧ id ∈ S'.ids) fun id _ => id ∈ S'.ids := by
  refine hk.within _ _ (fun id hid _ v hv => ⟨hv, hid⟩) (fun id hid _ _ => hid) ?_
  exact h.mono (fun id v hv => ⟨hv.1, hk.ids _ hv.2⟩) fun id _ hid => hk.ids _ hid

theorem PhaseHolds.keep {phase : CollectionPhase} (h : S.PhaseHolds config host phase)
    (hk : Keeps S S') (hnow : S.now ≤ S'.now) (horigin : S'.origin = S.origin)
    (hserved : S'.served = S.served) : S'.PhaseHolds config host phase := by
  have hreturned : S'.returned = S.returned := by rw [returned, hserved, returned]
  have hsince : ∀ now, S.Since now → S'.Since now := fun now hs =>
    ⟨le_trans hs.1 hnow, fun origin ho => hs.2 origin (horigin ▸ ho)⟩
  have hresumes : ∀ request now cursor, S.Resumes config host request now cursor →
      S'.Resumes config host request now cursor := by
    intro request now cursor hr
    cases cursor with
    | none => exact hr
    | some cursor =>
      obtain ⟨origin, ho, hcontinues, hrest⟩ := hr
      exact ⟨origin, horigin.trans ho, by rw [hreturned]; exact hcontinues, hrest⟩
  cases phase with
  | between start => exact At.keep h hk horigin hserved
  | asked request now => exact ⟨h.1.keep hk horigin hserved, hsince now h.2⟩
  | reading request now cursor =>
    exact ⟨h.1.keep hk horigin hserved, hsince now h.2.1, hresumes _ _ _ h.2.2⟩
  | filling request now cursor found =>
    obtain ⟨hat, hs, hr, hfound⟩ := h
    refine ⟨hat.keep hk horigin hserved, hsince now hs, hresumes _ _ _ hr, ?_⟩
    intro snapshot hsnapshot
    obtain ⟨hknown, hsame⟩ := hfound snapshot hsnapshot
    exact ⟨hknown.keep hk, fun hsome => by rw [horigin]; exact hsame hsome⟩
  | finished =>
    obtain ⟨origin, ho, hall⟩ := h
    exact ⟨origin, horigin.trans ho, hreturned.trans hall⟩

/-- A step that answers nothing. -/
theorem Followed.moves (h : S.Followed config host) (hk : Keeps S S') (hnow : S.now ≤ S'.now)
    (horigin : S'.origin = S.origin) (hserved : S'.served = S.served)
    (hphase : S.PhaseHolds config host S'.phase) : S'.Followed config host := by
  have hreturned : S'.returned = S.returned := by rw [returned, hserved, returned]
  refine ⟨known_keep h.known hk, by rw [hserved]; exact h.pages, fun origin ho => ?_,
    hphase.keep hk hnow horigin hserved⟩
  obtain ⟨hle, hpart⟩ := h.part origin (horigin ▸ ho)
  rw [hreturned]
  exact ⟨le_trans hle hnow, hpart⟩

end Keeps

/-! ## Steps of the traversal -/

section Query

variable {config : EntityCollectionConfig} {host : CollectionHost}
  {options : CollectionStoreOptions} {S : CollectionState}

theorem openQuery_start {request effective : EntityCollectionRequest}
    (h : openQuery config host request = .ok (some effective)) :
    effective.start = request.start := by
  have hsupported : ∀ anchor, (if config.trustAnchors.contains anchor then
      Except.ok (some { request with trustAnchor := some anchor })
      else .error (federationError .InvalidTrustAnchor "Unsupported collection Trust Anchor")) =
        Except.ok (some effective) → effective.start = request.start := by
    intro anchor h
    split at h
    · rw [← Option.some.inj (Except.ok.inj h)]
    · simp at h
  unfold openQuery at h
  split at h
  · simp at h
  · simp only at h
    split at h
    · exact hsupported _ h
    · simp at h
    · split at h
      · exact hsupported _ h
      · simp at h

theorem Followed.query (h : S.Followed config host) {request effective : EntityCollectionRequest}
    (hphase : S.phase = .between request.start)
    (hopen : openQuery config host request = .ok (some effective)) :
    Followed config host { S with phase := .asked effective S.now } := by
  have hat := h.phase
  rw [hphase, ← openQuery_start hopen] at hat
  exact h.moves (.of_store rfl (.inl rfl)) (le_refl _) rfl rfl
    ⟨hat, le_refl _, fun origin ho => (h.part origin ho).1⟩

theorem checkCursor_eq_ok {request : EntityCollectionRequest} {now : Rat}
    {found cursor : Option EntityCollectionCursor}
    (h : checkCursor host request now found = .ok cursor) :
    (request.start = none ∧ cursor = none) ∨ ∃ id c, request.start = some id ∧ found = some c ∧
      cursor = some c ∧ c.context = collectionContext host request ∧ now < c.expiresAt := by
  unfold checkCursor at h
  simp only at h
  split at h
  · rename_i hstart
    exact .inl ⟨hstart, (Except.ok.inj h).symm⟩
  · simp at h
  · rename_i id c hstart
    split at h
    · simp at h
    · rename_i hvalid
      simp only [not_or, not_not, not_le] at hvalid
      exact .inr ⟨id, c, hstart, rfl, (Except.ok.inj h).symm, hvalid.1, hvalid.2.2⟩

theorem Followed.findCursor (h : S.Followed config host) {request : EntityCollectionRequest}
    {now : Rat} (hphase : S.phase = .asked request now) :
    (S.findCursor host request now).Followed config host := by
  have hp := h.phase
  rw [hphase] at hp
  obtain ⟨hat, hsince⟩ := hp
  unfold CollectionState.findCursor
  generalize hread : (match request.start with
    | none => (none, S.store)
    | some id => S.store.getCursor S.now id) = read
  obtain ⟨found, store⟩ := read
  -- the store is as before, or has dropped what has expired
  have hstore : store = S.store ∨ ∃ t, store = S.store.prune t := by
    split at hread
    · exact .inl (congrArg Prod.snd hread).symm
    · exact .inr ⟨S.now, (congrArg Prod.snd hread).symm⟩
  simp only
  split
  · exact h.moves (.of_store rfl hstore) (le_refl _) rfl rfl hat
  · rename_i cursor hcheck
    refine h.moves (.of_store rfl hstore) (le_refl _) rfl rfl ⟨hat, hsince, ?_⟩
    rcases checkCursor_eq_ok hcheck with ⟨hstart, rfl⟩ | ⟨id, c, hstart, rfl, rfl, hcontext, hlt⟩
    · exact hstart
    · rw [hstart] at hat hread
      obtain ⟨origin, ho, hgoes⟩ := hat
      have hget : (S.store.getCursor S.now id).1 = some c := congrArg Prod.fst hread
      exact ⟨origin, ho, hgoes.only.getCursor hget rfl, hcontext, hlt⟩

/-- What is found under an identifier is the only snapshot with it. -/
theorem Followed.known_of_get (h : S.Followed config host) {id : String}
    {snapshot : EntityCollectionSnapshot}
    (hfound : (S.store.getSnapshot S.now id).1 = some snapshot) : S.Known snapshot := by
  obtain ⟨hid, hused⟩ := h.known.getSnapshot hfound
  obtain ⟨stored, hget, rfl⟩ := Option.map_eq_some_iff.mp hfound
  have hstored := (Dict.get?_filter_eq_some.mp hget).1
  refine ⟨by rw [hid]; exact hused, fun id' s hs heq => ?_, fun _ _ _ => trivial⟩
  rw [heq, hid, hstored] at hs
  rw [Option.some.inj hs]

theorem Followed.findSnapshot (h : S.Followed config host) {request : EntityCollectionRequest}
    {now : Rat} {cursor : Option EntityCollectionCursor}
    (hphase : S.phase = .reading request now cursor) :
    (S.findSnapshot request now cursor).Followed config host := by
  have hp := h.phase
  rw [hphase] at hp
  obtain ⟨hat, hsince, hresumes⟩ := hp
  have hkeep : ∀ phase, Keeps S { S with store := S.store.prune S.now, phase := phase } :=
    fun _ => .of_store rfl (.inr ⟨_, rfl⟩)
  cases cursor with
  | none =>
    refine h.moves (hkeep _) (le_refl _) rfl rfl ⟨hat, hsince, hresumes, fun snapshot hfound => ?_⟩
    exact ⟨h.known_of_get hfound, by simp⟩
  | some cursor =>
    refine h.moves (hkeep _) (le_refl _) rfl rfl ⟨hat, hsince, hresumes, fun snapshot hfound => ?_⟩
    refine ⟨h.known_of_get hfound, fun _ => ?_⟩
    obtain ⟨origin, ho, hcontinues, -⟩ := hresumes
    cases hstart : request.start with
    | none =>
      rw [hstart] at hat
      rw [hat.1] at ho
      simp at ho
    | some id =>
      rw [hstart] at hat
      obtain ⟨origin', ho', hgoes⟩ := hat
      obtain rfl := Option.some.inj (ho.symm.trans ho')
      exact ⟨origin, ho, (hgoes.snapshot.only.getSnapshot hfound hcontinues.snapshotId).symm⟩

/-- How an answer belongs to its traversal: it sees the entries of the first request, from where the
pages so far end. -/
structure Belongs (config : EntityCollectionConfig) (host : CollectionHost) (S : CollectionState)
    (request : EntityCollectionRequest) (now : Rat) (cursor : Option EntityCollectionCursor)
    (snapshot : EntityCollectionSnapshot) (origin : CollectionOrigin) : Prop where
  origin_eq : S.origin.or (some ⟨snapshot, request, now⟩) = some origin
  snapshot_eq : origin.snapshot = snapshot
  now_le : origin.now ≤ S.now
  context : collectionContext host origin.request = collectionContext host request
  entries : eligibleEntries host request now snapshot = origin.entries host
  start : (cursor.map (·.index)).getD 0 = S.returned.length
  part : S.returned = (origin.shown config host).take S.returned.length
  expiresAt : (cursor.map (·.expiresAt)).elim (validUntil config host request now snapshot)
    (min (validUntil config host request now snapshot)) ≤
      validUntil config host origin.request origin.now origin.snapshot

theorem Followed.belongs (h : S.Followed config host) {request : EntityCollectionRequest} {now : Rat}
    {cursor : Option EntityCollectionCursor} {snapshot : EntityCollectionSnapshot}
    (hphase : S.phase = .filling request now cursor (some snapshot)) :
    ∃ origin, Belongs config host S request now cursor snapshot origin := by
  have hp := h.phase
  rw [hphase] at hp
  obtain ⟨hat, hsince, hresumes, hfinds⟩ := hp
  obtain ⟨-, hsame⟩ := hfinds snapshot rfl
  cases cursor with
  | none =>
    rw [show request.start = none from hresumes] at hat
    have hreturned : S.returned = [] := by rw [returned, hat.2, List.flatMap_nil]
    refine ⟨⟨snapshot, request, now⟩, by rw [hat.1, Option.none_or], rfl, hsince.1, rfl, rfl, ?_, ?_,
      le_refl _⟩
    · rw [hreturned]
      rfl
    · rw [hreturned, List.length_nil, List.take_zero]
  | some cursor =>
    obtain ⟨origin, ho, hcontinues, hcontext, hlt⟩ := hresumes
    obtain ⟨origin', ho', hsnapshot⟩ := hsame rfl
    obtain rfl := Option.some.inj (ho.symm.trans ho')
    obtain ⟨hle, hpart⟩ := h.part origin ho
    have hcontexts := hcontinues.context.symm.trans hcontext
    refine ⟨origin, by rw [ho, Option.some_or], hsnapshot, hle, hcontexts, ?_, hcontinues.index,
      hpart, le_trans (min_le_right _ _) hcontinues.expiresAt⟩
    rw [← hsnapshot]
    exact eligibleEntries_stable (sameContext_of_eq hcontexts) (hsince.2 origin ho)
      (lt_of_lt_of_le hlt hcontinues.expiresAt)

section Answer

variable {request : EntityCollectionRequest} {now : Rat} {cursor : Option EntityCollectionCursor}
  {snapshot : EntityCollectionSnapshot} {origin : CollectionOrigin} {page : List Json}

theorem Belongs.shown (hb : Belongs config host S request now cursor snapshot origin) :
    origin.shown config host = (eligibleEntries host request now snapshot).map fun entry =>
      projectCollectionEntity host request (supportedInfoClaims config) entry.entity := by
  rw [hb.entries, CollectionOrigin.shown]
  exact List.map_congr_left fun entry _ =>
    projectCollectionEntity_congr (sameContext_of_eq hb.context) entry.entity

/-- The page goes on where the pages so far end. -/
theorem Belongs.extends (hb : Belongs config host S request now cursor snapshot origin)
    (hpage : IsPage config host request now ((cursor.map (·.index)).getD 0) snapshot page) :
    S.returned ++ page =
      (origin.shown config host).take (S.returned ++ page).length := by
  obtain ⟨n, hn⟩ := hpage.part
  rw [List.map_take, List.map_drop, ← hb.shown, hb.start] at hn
  have hpart : page = ((origin.shown config host).drop S.returned.length).take page.length := by
    conv_lhs => rw [hn]
    rw [List.take_eq_take_iff, hn, List.length_take]
    omega
  rw [List.length_append, List.take_add, ← hb.part, ← hpart]

theorem fits_of_isPage
    (hpage : IsPage config host request now ((cursor.map (·.index)).getD 0) snapshot page)
    (next : Option Uuid)
    (hnext : next.isSome → (cursor.map (·.index)).getD 0 + page.length <
      (eligibleEntries host request now snapshot).length) :
    ServedPage.Fits config host
      ⟨request, ⟨page, some snapshot.lastUpdated, next.map (·.text)⟩⟩ := by
  refine ⟨fun hlimit hsome => hpage.progress ?_ (hnext (by simpa using hsome)), fun hne =>
    hpage.size hne next⟩
  have hmax := config.maxPageSize.pos
  unfold pageLimit
  cases hrequest : request.limit with
  | none =>
    rw [Option.getD_none, min_self]
    exact hmax
  | some limit =>
    have hpos : limit ≠ 0 := by
      rintro rfl
      exact hlimit hrequest
    rw [Option.getD_some]
    omega

end Answer

theorem Followed.answer (h : S.Followed config host) {request : EntityCollectionRequest} {now : Rat}
    {cursor : Option EntityCollectionCursor} {found : Option EntityCollectionSnapshot} {uuid : Uuid}
    (hphase : S.phase = .filling request now cursor found) (hfresh : uuid.text ∉ S.ids) :
    (S.answer config host options request now cursor found uuid).Followed config host := by
  unfold CollectionState.answer
  split
  · -- the query is refused, and the traversal stays where it is
    have hp := h.phase
    rw [hphase] at hp
    exact h.moves (.of_store rfl (.inl rfl)) (le_refl _) rfl rfl hp.1
  · rename_i page snapshot heq
    obtain ⟨rfl, hpage, hnext⟩ := collectionPage_eq_ok heq
    obtain ⟨origin, hb⟩ := h.belongs hphase
    -- without a cursor in the answer the page reaches the end of the entries
    have hall : ¬ (cursor.map (·.index)).getD 0 + page.length <
        (eligibleEntries host request now snapshot).length := by
      intro hlt
      rw [if_pos hlt] at hnext
      simp at hnext
    have hreturned : (S.served ++ [(⟨request, ⟨page, some snapshot.lastUpdated, none⟩⟩ :
        ServedPage)]).flatMap (·.response.entities) = S.returned ++ page := by
      rw [List.flatMap_append, returned, List.flatMap_singleton]
    refine ⟨h.known, fun p hp => ?_, fun o ho => ?_, origin, hb.origin_eq, ?_⟩
    · rcases List.mem_append.mp hp with hp | hp
      · exact h.pages p hp
      · rw [List.mem_singleton.mp hp]
        exact fits_of_isPage hpage none (by simp)
    · obtain rfl := Option.some.inj (hb.origin_eq.symm.trans ho)
      refine ⟨hb.now_le, ?_⟩
      rw [returned, hreturned]
      exact hb.extends hpage
    · rw [returned, hreturned, hb.extends hpage]
      refine List.take_of_length_le ?_
      rw [hb.shown, List.length_map, List.length_append, ← hb.start]
      exact not_lt.mp hall
  · rename_i page snapshot next heq
    obtain ⟨rfl, hpage, hnext⟩ := collectionPage_eq_ok heq
    obtain ⟨origin, hb⟩ := h.belongs hphase
    have hmore : (cursor.map (·.index)).getD 0 + page.length <
        (eligibleEntries host request now snapshot).length := by
      by_contra hlt
      rw [if_neg hlt] at hnext
      simp at hnext
    rw [if_pos hmore] at hnext
    have hreturned : (S.served ++ [(⟨request, ⟨page, some snapshot.lastUpdated, some uuid.text⟩⟩ :
        ServedPage)]).flatMap (·.response.entities) = S.returned ++ page := by
      rw [List.flatMap_append, returned, List.flatMap_singleton]
    -- the new cursor stands behind what has been returned by now
    have hcontinues : origin.Continues config host (S.returned ++ page).length next := by
      rw [Option.some.inj hnext]
      refine ⟨by rw [hb.snapshot_eq], hb.context.symm, ?_, hb.expiresAt⟩
      rw [List.length_append, ← hb.start]
    have hp := h.phase
    rw [hphase] at hp
    obtain ⟨hknown, -⟩ := hp.2.2.2 snapshot rfl
    rw [← hb.snapshot_eq] at hknown
    have hkeep : Keeps S { S with
        store := S.store.putCursor options S.now uuid.text next
        ids := uuid.text :: S.ids
        phase := .between (some uuid.text)
        origin := S.origin.or (some ⟨snapshot, request, now⟩)
        served := S.served ++
          [⟨request, ⟨page, some snapshot.lastUpdated, some uuid.text⟩⟩] } :=
      .putCursor next hfresh rfl rfl
    refine ⟨known_keep h.known hkeep, fun p hp => ?_, fun o ho => ?_, origin, hb.origin_eq,
      hknown.keep hkeep, .head _, ?_⟩
    · rcases List.mem_append.mp hp with hp | hp
      · exact h.pages p hp
      · rw [List.mem_singleton.mp hp]
        exact fits_of_isPage hpage (some uuid) fun _ => hmore
    · obtain rfl := Option.some.inj (hb.origin_eq.symm.trans ho)
      refine ⟨hb.now_le, ?_⟩
      rw [returned, hreturned]
      exact hb.extends hpage
    · -- no other cursor is under the new identifier
      rw [returned, hreturned]
      refine CollectionStore.Within.putCursor ?_ options S.now fun _ => hcontinues
      refine h.known.mono (fun _ _ _ => trivial) fun id _ hid heq => ?_
      exact absurd (heq ▸ hid) hfresh

end Query

end CollectionState

variable {config host options} {S : CollectionState}

theorem followed_of_reach (h : (collectionTraversal config host options).Reach S) :
    S.Followed config host := by
  refine h.invariant (I := fun S : CollectionState => S.Followed config host) ?_ ?_
  · rintro S ⟨now, rfl⟩
    refine ⟨⟨fun id s hs => ?_, fun id c hc => ?_⟩, by simp, by simp, rfl, rfl⟩
    · simp at hs
    · simp at hc
  · intro S S' hS hs
    cases hs with
    | tick hle => exact hS.moves (.of_store rfl (.inl rfl)) hle rfl rfl hS.phase
    | publish snapshot hfresh => exact hS.moves (.publish hfresh) (le_refl _) rfl rfl hS.phase
    | putCursor cursor hfresh =>
      exact hS.moves (.putCursor cursor hfresh rfl rfl) (le_refl _) rfl rfl hS.phase
    | prune => exact hS.moves (.of_store rfl (.inr ⟨_, rfl⟩)) (le_refl _) rfl rfl hS.phase
    | query hphase hopen => exact hS.query hphase hopen
    | findCursor hphase => exact hS.findCursor hphase
    | findSnapshot hphase => exact hS.findSnapshot hphase
    | answer hphase hfresh => exact hS.answer hphase hfresh

/-- Over every traversal, whatever is published meanwhile, the pages so far are the first of the
entities that were eligible at the first request, and all of them once it is finished. A page that
goes on has entities, unless its limit is 0, and no page with entities is too large. -/
theorem collection_stable (h : (collectionTraversal config host options).Reach S)
    {origin : CollectionOrigin} (ho : S.origin = some origin) :
    S.returned = (origin.shown config host).take S.returned.length ∧
      (S.phase = .finished → S.returned = origin.shown config host) ∧
      ∀ page ∈ S.served, page.Fits config host := by
  have hfollowed := followed_of_reach h
  refine ⟨(hfollowed.part origin ho).2, fun hphase => ?_, hfollowed.pages⟩
  have hp := hfollowed.phase
  rw [hphase] at hp
  obtain ⟨origin', ho', hall⟩ := hp
  obtain rfl := Option.some.inj (ho.symm.trans ho')
  exact hall

end Traversal

/-! ## A run -/

/-- A choice of the next step. -/
inductive CollectionMove where
  | tick (t : Rat)
  | publish (snapshot : EntityCollectionSnapshot)
  | query (request : EntityCollectionRequest)
  | findCursor
  | findSnapshot
  | answer (uuid : Uuid)

/-- The state that a choice leads to; one that is not possible changes nothing. -/
def CollectionMove.apply (config : EntityCollectionConfig) (host : CollectionHost)
    (options : CollectionStoreOptions) (S : CollectionState) (move : CollectionMove) :
    CollectionState :=
  match move, S.phase with
  | .tick t, _ => if S.now ≤ t then { S with now := t } else S
  | .publish snapshot, _ =>
    if snapshot.id ∈ S.ids then S
    else { S with
      store := (S.store.publish options S.now S.now snapshot).2
      ids := snapshot.id :: S.ids }
  | .query request, .between start =>
    if start = request.start then
      match openQuery config host request with
      | .ok (some effective) => { S with phase := .asked effective S.now }
      | _ => S
    else S
  | .findCursor, .asked request now => S.findCursor host request now
  | .findSnapshot, .reading request now cursor => S.findSnapshot request now cursor
  | .answer uuid, .filling request now cursor found =>
    if uuid.text ∈ S.ids then S else S.answer config host options request now cursor found uuid
  | _, _ => S

def collectionRun (config : EntityCollectionConfig) (host : CollectionHost)
    (options : CollectionStoreOptions) (moves : List CollectionMove) : CollectionState :=
  moves.foldl (CollectionMove.apply config host options) { now := 0 }

theorem reach_collectionRun {config : EntityCollectionConfig} {host : CollectionHost}
    {options : CollectionStoreOptions} (moves : List CollectionMove) :
    (collectionTraversal config host options).Reach (collectionRun config host options moves) := by
  unfold collectionRun
  induction moves using List.reverseRecOn with
  | nil => exact .init ⟨0, rfl⟩
  | append_singleton moves move ih =>
    rw [List.foldl_concat]
    unfold CollectionMove.apply
    split
    · split
      · rename_i hle
        exact ih.step (.tick hle)
      · exact ih
    · split
      · exact ih
      · rename_i hfresh
        exact ih.step (.publish _ hfresh)
    · rename_i hphase
      split
      · rename_i hstart
        rw [hstart] at hphase
        split
        · rename_i hopen
          exact ih.step (.query hphase hopen)
        · exact ih
      · exact ih
    · rename_i hphase
      exact ih.step (.findCursor hphase)
    · rename_i hphase
      exact ih.step (.findSnapshot hphase)
    · rename_i hphase
      split
      · exact ih
      · rename_i hfresh
        exact ih.step (.answer hphase hfresh)
    · exact ih

def exampleHost : CollectionHost where
  numberText := decimalText
  toLowerCase := id
  isLanguageTag _ := false

def collected (id : String) : CollectionEntry where
  entity := .obj [("entity_id", .str id)]
  expiresAt := 1000

def snapshotOf (id : String) (lastUpdated : Rat) (entities : List String) :
    EntityCollectionSnapshot where
  id := id
  trustAnchor := "https://ta.example"
  lastUpdated := lastUpdated
  entries := entities.map collected

def otherUuid : Uuid := ⟨"11111111-1111-1111-1111-111111111111", by simp, by simp [uuidChars]⟩

/-- A page of one entity is read. Then another snapshot is published, and the rest is read. -/
def collectionMoves : List CollectionMove :=
  [.publish (snapshotOf "s1" 0 ["https://a.example", "https://b.example"]),
    .query { trustAnchor := some "https://ta.example", limit := some 1 }, .findCursor,
    .findSnapshot, .answer nilUuid, .tick 5,
    .publish (snapshotOf "s2" 5 ["https://b.example", "https://c.example"]),
    .query { trustAnchor := some "https://ta.example", start := some nilUuid.text }, .findCursor,
    .findSnapshot, .answer otherUuid]

def exampleCollection : CollectionState :=
  collectionRun { trustAnchors := ["https://ta.example"] } exampleHost {} collectionMoves

theorem exampleCollection_stable : ∃ origin, exampleCollection.origin = some origin ∧
    origin.snapshot.id = "s1" ∧ exampleCollection.returned =
      origin.shown { trustAnchors := ["https://ta.example"] } exampleHost := by
  have hid : exampleCollection.origin.map (·.snapshot.id) = some "s1" := by decide +kernel
  have hphase : exampleCollection.phase = .finished := by decide +kernel
  obtain ⟨origin, ho, hsnapshot⟩ := Option.map_eq_some_iff.mp hid
  exact ⟨origin, ho, hsnapshot, (collection_stable (reach_collectionRun collectionMoves) ho).2.1 hphase⟩

end OidFed
