import OidFed.Lib.Keyset
import OidFed.Lib.System
import OidFed.Storage.State

/-!
# The extended subordinate listing (`authority/src/endpoints/extended-list.ts`)

`createExtendedListHandler` fills a page with several reads of the store, each from a cursor on,
and answers with the cursor at which the next request goes on. The store may change between any two
reads.

* `MemoryState.list`: one read of the store; `list_segment`: its records are a segment of those
  that match.
* `listingTurn`: one turn of the handler's loop; `turn_covers`: it extends what the request has
  gathered up to its cursor, or ends the page at the place of the next one.
* `extendedListing`: a traversal, request after request, among writes of the store.
* `listing_complete`: in every run, the records come in increasing order, and at the end each
  record that every read could see has been returned exactly once.
-/

namespace OidFed

open Js Keyset

/-! ## Reading the store (`authority/src/storage/memory.ts`) -/

structure ListFilter where
  entityTypes : List String := []
  trustMarked : Option Bool := none
  trustMarkType : Option (List String) := none
  intermediate : Option Bool := none
  validAt : Option Rat := none

structure ListPageOptions where
  limit : Option Nat := none
  cursor : Option String := none
  updatedAfter : Option Rat := none
  updatedBefore : Option Rat := none

structure ListPage where
  items : List SubordinateRecord
  nextCursor : Option String := none

/-- The order of records in a page. -/
def SubordinateRecord.key (record : SubordinateRecord) : Utf16 := ⟨record.entityId⟩

section List

variable (filter : ListFilter) (options : ListPageOptions)

/-- The marks that a filter looks at, and the time at which they are to be valid. -/
def ListFilter.marks (state : MemoryState) :
    Except StorageError (Option (Dict String TrustMarkRecord × Rat)) :=
  if filter.trustMarked = some true ∨ filter.trustMarkType.isSome then
    match filter.validAt with
    | none => .error (.typeError "validAt is required for trust mark filters")
    | some validAt =>
      match state.trustMarks with
      | none => .error (.error "Trust mark filtering is not supported by this adapter")
      | some marks => .ok (some (marks, validAt))
  else .ok none

def hasValidMark (marks : Dict String TrustMarkRecord) (validAt : Rat) (record : SubordinateRecord) :
    Bool :=
  marks.members.any fun e => e.2.subject == record.entityId &&
    filter.trustMarkType.all (fun types => types.contains e.2.trustMarkType) &&
    isValidTrustMark e.2 validAt

/-- The filters, one after the other. -/
def admits (marks : Option (Dict String TrustMarkRecord × Rat)) (record : SubordinateRecord) :
    Bool :=
  (filter.entityTypes.isEmpty ||
    record.entityTypes.any fun types => types.any fun type => filter.entityTypes.contains type) &&
  (filter.intermediate.all fun intermediate =>
    record.isIntermediate.getD false == intermediate) &&
  (marks.all fun m => hasValidMark filter m.1 m.2 record) &&
  (options.updatedAfter.all fun t => decide (t ≤ record.updatedAt)) &&
  options.updatedBefore.all fun t => decide (record.updatedAt ≤ t)

/-- The records that the filters admit, in order, from the cursor on. -/
def listResults (marks : Option (Dict String TrustMarkRecord × Rat)) (state : MemoryState) :
    List SubordinateRecord :=
  let results := (state.subordinates.members.map Prod.snd).filter (admits filter options marks)
  let results := results.insertionSort fun a b => a.key ≤ b.key
  match options.cursor with
  | none => results
  | some cursor => results.filter fun record => textLe cursor record.entityId

def cutPage (limit : Option Nat) (results : List SubordinateRecord) : ListPage :=
  match limit with
  | none => { items := results }
  | some limit =>
    if limit < results.length then
      { items := results.take limit, nextCursor := results[limit]?.map (·.entityId) }
    else { items := results }

/-- `list(filter, options)`. -/
def MemoryState.list (state : MemoryState) : Except StorageError ListPage :=
  match filter.marks state with
  | .error e => .error e
  | .ok marks => .ok (cutPage options.limit (listResults filter options marks state))

end List

/-! ## The handler -/

structure ExtendedListingConfig where
  maxPageSize : ℕ+ := 500
  defaultPageSize : ℕ+ := 100
  maxStorePagesPerRequest : ℕ+ := 16
  storeBatchSize : Option ℕ+ := none

/-- The parameters that all requests of a traversal have in common. -/
structure ListingQuery where
  entityTypes : List String := []
  intermediate : Option Bool := none
  trustMarked : Option Bool := none
  trustMarkTypes : List String := []
  updatedAfter : Option Rat := none
  updatedBefore : Option Rat := none

section Handler

variable (config : ExtendedListingConfig) (query : ListingQuery)

def ListingQuery.filter (now : Rat) : ListFilter where
  entityTypes := query.entityTypes
  trustMarked := if query.trustMarked = some true then some true else none
  trustMarkType := if query.trustMarkTypes.isEmpty then none else some query.trustMarkTypes
  intermediate := query.intermediate
  validAt := if query.trustMarked = some true ∨ ¬ query.trustMarkTypes.isEmpty then some now else none

def ListingQuery.options (cursor : Option String) : ListPageOptions where
  limit := some (config.storeBatchSize.getD config.defaultPageSize)
  cursor := cursor
  updatedAfter := query.updatedAfter
  updatedBefore := query.updatedBefore

/-- How a turn of the loop ends: it goes on, or the page ends with its `next`. -/
inductive ListingTurn where
  | again (accumulated : List SubordinateRecord) (storeCursor : String)
  | page (accumulated : List SubordinateRecord) (next : Option String)

/-- The body of the loop, with the page that the store has answered. -/
def fillPage (effectiveLimit : Nat) (accumulated : List SubordinateRecord) (page : ListPage) :
    ListingTurn :=
  if page.items.isEmpty then .page accumulated none
  else
    let accumulated := accumulated ++ page.items.take (effectiveLimit - accumulated.length)
    if effectiveLimit ≤ accumulated.length then
      match accumulated.getLast? with
      | none => .page accumulated none
      | some lastRecord =>
        let foundInPage := page.items.find? fun record => textLt lastRecord.entityId record.entityId
        .page accumulated ((foundInPage.map (·.entityId)).or page.nextCursor)
    else
      match page.nextCursor with
      | none => .page accumulated none
      | some nextCursor => .again accumulated nextCursor

/-- One turn of the loop. It ends when the page is full, or after a number of reads; then the page
goes on where the store would. -/
def listingTurn (effectiveLimit : Nat) (now : Rat) (accumulated : List SubordinateRecord)
    (storeCursor : Option String) (pagesFetched : Nat) (state : MemoryState) :
    Except StorageError ListingTurn :=
  if accumulated.length < effectiveLimit ∧ pagesFetched < config.maxStorePagesPerRequest then
    (state.list (query.filter now) (query.options config storeCursor)).map
      (fillPage effectiveLimit accumulated)
  else .ok (.page accumulated (if accumulated.length < effectiveLimit then storeCursor else none))

end Handler

/-! ## A read is a segment -/

/-- The place at which a cursor begins. -/
def cursorPlace : Option String → Position Utf16
  | none => .start
  | some cursor => .before ⟨cursor⟩

/-- The place at which a page ends that goes on at `next`. -/
def nextPlace : Option String → Position Utf16
  | none => .finish
  | some next => .before ⟨next⟩

/-- The records are under their identifiers. -/
def Keyed (state : MemoryState) : Prop :=
  ∀ k record, state.subordinates.get? k = some record → record.entityId = k

theorem Keyed.apply {state : MemoryState} (h : Keyed state) (m : Mutation) (now : Rat) :
    Keyed (m.apply now state).2 := by
  -- a record is only ever written under its own identifier
  have hset : ∀ (k : String) (r : SubordinateRecord), r.entityId = k →
      Keyed { state with subordinates := state.subordinates.set k r } := by
    intro k r hr k' record hget
    by_cases hk : k' = k
    · subst hk
      rw [Dict.get?_set_self] at hget
      rw [← Option.some.inj hget]
      exact hr
    · rw [Dict.get?_set_ne _ _ hk] at hget
      exact h k' record hget
  cases m with
  | add record =>
    simp only [Mutation.apply, MemoryState.addSubordinate]
    split
    · exact h
    · exact hset _ _ rfl
  | update entityId updates =>
    simp only [Mutation.apply, MemoryState.updateSubordinate]
    split
    · exact h
    · rename_i existing hget
      split
      · exact h
      · exact hset entityId _ (h entityId existing hget)
  | remove entityId =>
    simp only [Mutation.apply, MemoryState.removeSubordinate]
    split
    · intro k record hget
      rw [Dict.get?_erase] at hget
      split at hget
      · simp at hget
      · exact h k record hget
    · exact h
  | issue record =>
    simp only [Mutation.apply, MemoryState.issueTrustMark]
    split
    · exact h
    · split <;> exact h
  | revoke trustMarkType subject revokedAt =>
    simp only [Mutation.apply, MemoryState.revokeTrustMark]
    split
    · exact h
    · split <;> exact h
  | append issuer subject events =>
    simp only [Mutation.apply, MemoryState.appendEvents]
    split <;> exact h

/-- A record is there that a filter admits. -/
def Listed (filter : ListFilter) (options : ListPageOptions) (state : MemoryState) (k : Utf16) :
    Prop :=
  ∃ marks record, filter.marks state = .ok marks ∧
    state.subordinates.get? k.text = some record ∧ admits filter options marks record = true

section Segment

variable {filter : ListFilter} {options : ListPageOptions} {state : MemoryState}

/-- The admitted records in their order. -/
theorem sorted_results (hk : Keyed state)
    (keep : SubordinateRecord → Bool) :
    ((((state.subordinates.members.map Prod.snd).filter keep).insertionSort
      fun a b => a.key ≤ b.key).map (·.key)).Pairwise (· < ·) := by
  have hkeys : (state.subordinates.members.map Prod.snd).map (·.key) =
      state.subordinates.keys.map Utf16.mk := by
    rw [Dict.keys, List.map_map, List.map_map]
    refine List.map_congr_left fun e he => ?_
    have := hk e.1 e.2 ((Dict.get?_eq_some_iff _ _ _).mpr he)
    simp [SubordinateRecord.key, this]
  have hnodup : ((state.subordinates.members.map Prod.snd).map (·.key)).Nodup := by
    rw [hkeys]
    exact state.subordinates.nodup.map fun a b h => congrArg Utf16.text h
  have hsub : ((((state.subordinates.members.map Prod.snd).filter keep).insertionSort
      fun a b => a.key ≤ b.key).map (·.key)).Nodup := by
    refine (List.Perm.nodup_iff ((List.perm_insertionSort _ _).map _)).mpr ?_
    exact hnodup.sublist ((List.filter_sublist).map _)
  have hle := List.pairwise_insertionSort (fun a b : SubordinateRecord => a.key ≤ b.key)
    ((state.subordinates.members.map Prod.snd).filter keep)
  rw [List.pairwise_map]
  rw [List.nodup_iff_pairwise_ne, List.pairwise_map] at hsub
  exact (hle.and hsub).imp fun h => lt_of_le_of_ne h.1 h.2

theorem mem_results_iff (options : ListPageOptions) (hk : Keyed state) {marks : Option (Dict String TrustMarkRecord × Rat)}
    (hmarks : filter.marks state = .ok marks) (k : Utf16) :
    k ∈ ((((state.subordinates.members.map Prod.snd).filter (admits filter options marks)).insertionSort
      fun a b => a.key ≤ b.key).map (·.key)) ↔ Listed filter options state k := by
  simp only [List.mem_map, List.mem_insertionSort, List.mem_filter]
  constructor
  · rintro ⟨record, ⟨⟨⟨name, record'⟩, hmem, rfl⟩, hadmits⟩, rfl⟩
    have hget := (Dict.get?_eq_some_iff _ _ _).mpr hmem
    refine ⟨marks, record', hmarks, ?_, hadmits⟩
    rw [SubordinateRecord.key, hk name record' hget]
    exact hget
  · rintro ⟨marks', record, hmarks', hget, hadmits⟩
    rw [hmarks] at hmarks'
    obtain rfl := Except.ok.inj hmarks'
    refine ⟨record, ⟨⟨(k.text, record), (Dict.get?_eq_some_iff _ _ _).mp hget, rfl⟩, hadmits⟩, ?_⟩
    rw [SubordinateRecord.key, hk k.text record hget]

theorem sorted_listResults (options : ListPageOptions) (hk : Keyed state)
    (marks : Option (Dict String TrustMarkRecord × Rat)) :
    ((listResults filter options marks state).map (·.key)).Pairwise (· < ·) := by
  have hresults := sorted_results hk (admits filter options marks)
  simp only [listResults]
  split
  · exact hresults
  · exact hresults.sublist ((List.filter_sublist).map _)

theorem mem_listResults_iff (options : ListPageOptions) (hk : Keyed state)
    {marks : Option (Dict String TrustMarkRecord × Rat)} (hmarks : filter.marks state = .ok marks)
    (k : Utf16) : k ∈ (listResults filter options marks state).map (·.key) ↔
      Listed filter options state k ∧ ¬ (cursorPlace options.cursor).Passed k := by
  have hresults := mem_results_iff options hk hmarks k
  simp only [listResults]
  cases hcursor : options.cursor with
  | none =>
    rw [cursorPlace, Position.Passed, not_false_eq_true, and_true]
    exact hresults
  | some cursor =>
    rw [cursorPlace, Position.Passed, not_lt, ← hresults]
    simp only [List.mem_map, List.mem_filter, textLe_iff]
    constructor
    · rintro ⟨record, ⟨hr, hle⟩, rfl⟩
      exact ⟨⟨record, hr, rfl⟩, hle⟩
    · rintro ⟨⟨record, hr, rfl⟩, hle⟩
      exact ⟨record, ⟨hr, hle⟩, rfl⟩

theorem list_eq_ok {page : ListPage} (h : state.list filter options = .ok page) :
    ∃ marks, filter.marks state = .ok marks ∧
      page = cutPage options.limit (listResults filter options marks state) := by
  unfold MemoryState.list at h
  split at h
  · simp at h
  · rename_i marks hmarks
    exact ⟨marks, hmarks, (Except.ok.inj h).symm⟩

/-- One read of the store is a segment of the matching records. -/
theorem list_segment (hk : Keyed state) {limit : Nat} (hlimit : options.limit = some limit)
    {page : ListPage} (h : state.list filter options = .ok page) :
    Segment (Listed filter options state) (cursorPlace options.cursor) (nextPlace page.nextCursor)
      (page.items.map (·.key)) := by
  obtain ⟨marks, hmarks, rfl⟩ := list_eq_ok h
  have hseg := page_segment (sorted_listResults options hk marks)
    (mem_listResults_iff options hk hmarks) limit
  rw [hlimit, cutPage]
  by_cases hlt : limit < (listResults filter options marks state).length
  · simp only [if_pos hlt]
    rw [List.map_take]
    convert hseg using 1
    rw [placeBefore, List.getElem?_map, List.getElem?_eq_getElem hlt]
    rfl
  · simp only [if_neg hlt]
    rw [List.take_of_length_le (by simpa using hlt), placeBefore,
      List.getElem?_eq_none (by simpa using hlt)] at hseg
    exact hseg

/-- A page without records is the last one. -/
theorem list_empty {limit : Nat} (hlimit : options.limit = some limit) (hpos : 0 < limit)
    {page : ListPage} (h : state.list filter options = .ok page) (hempty : page.items = []) :
    page.nextCursor = none := by
  obtain ⟨marks, -, rfl⟩ := list_eq_ok h
  rw [hlimit, cutPage] at hempty ⊢
  by_cases hlt : limit < (listResults filter options marks state).length
  · simp only [if_pos hlt] at hempty
    have hlen := congrArg List.length hempty
    rw [List.length_take, List.length_nil] at hlen
    omega
  · simp only [if_neg hlt]

end Segment

/-! ## A turn of the loop -/

/-- What a turn leaves: the gathered records cover all up to where the loop goes on, or up to where
the next page begins. -/
def TurnCovers (steady : Utf16 → Prop) (returned : List Utf16) (effectiveLimit : Nat) :
    ListingTurn → Prop
  | .again accumulated cursor => accumulated.length < effectiveLimit ∧
      Covers steady (returned ++ accumulated.map (·.key)) (cursorPlace (some cursor))
  | .page accumulated next => Covers steady (returned ++ accumulated.map (·.key)) (nextPlace next)

section Turn

variable {steady visible : Utf16 → Prop} {returned : List Utf16} {effectiveLimit : Nat}
  {accumulated : List SubordinateRecord}

/-- Where a page is full, its `next` is the place after the last record taken. -/
theorem full_page_next {items : List SubordinateRecord} {n : Nat} {lastRecord : SubordinateRecord}
    (hsorted : (items.map (·.key)).Pairwise (· < ·)) (hn : items[n]? = some lastRecord)
    (next : Option String) :
    nextPlace (((items.find? fun record => textLt lastRecord.entityId record.entityId).map
      (·.entityId)).or next) = placeBefore (items.map (·.key)) (n + 1) (nextPlace next) := by
  have hkey : (items.map (·.key))[n]? = some lastRecord.key := by rw [List.getElem?_map, hn]; rfl
  have hfind := find?_after hsorted hkey
  rw [List.find?_map, List.getElem?_map] at hfind
  have hfound : (items.find? fun record => textLt lastRecord.entityId record.entityId).map (·.key) =
      items[n + 1]?.map (·.key) := hfind
  rw [placeBefore, List.getElem?_map, ← hfound]
  cases items.find? fun record => textLt lastRecord.entityId record.entityId <;> rfl

theorem fillPage_covers {p : Position Utf16} {page : ListPage}
    (hcovers : Covers steady (returned ++ accumulated.map (·.key)) p)
    (hseg : Segment visible p (nextPlace page.nextCursor) (page.items.map (·.key)))
    (hempty : page.items = [] → page.nextCursor = none)
    (hsteady : ∀ k, steady k → visible k) (hroom : accumulated.length < effectiveLimit) :
    TurnCovers steady returned effectiveLimit (fillPage effectiveLimit accumulated page) := by
  obtain ⟨n, hn⟩ : ∃ n, effectiveLimit - accumulated.length = n + 1 :=
    ⟨effectiveLimit - accumulated.length - 1, by omega⟩
  have htaken : Covers steady
      (returned ++ (accumulated ++ page.items.take (n + 1)).map (·.key))
      (placeBefore (page.items.map (·.key)) (n + 1) (nextPlace page.nextCursor)) := by
    rw [List.map_append, ← List.append_assoc, List.map_take]
    exact hcovers.segment (hseg.take (n + 1)) hsteady
  have hlength : (accumulated ++ page.items.take (n + 1)).length =
      accumulated.length + min (n + 1) page.items.length := by
    rw [List.length_append, List.length_take]
  unfold fillPage
  rw [hn]
  by_cases hnil : page.items = []
  · rw [if_pos (by simp [hnil])]
    have hall := hcovers.segment hseg hsteady
    rw [hempty hnil, hnil, List.map_nil, List.append_nil] at hall
    exact hall
  · rw [if_neg (by simp [hnil])]
    by_cases hfull : effectiveLimit ≤ (accumulated ++ page.items.take (n + 1)).length
    · -- the page is full, and the record at `n` is the last one taken
      simp only [if_pos hfull]
      have hlt : n < page.items.length := by omega
      have hlast : (accumulated ++ page.items.take (n + 1)).getLast? = some page.items[n] := by
        rw [List.take_succ_eq_append_getElem hlt, ← List.append_assoc, List.getLast?_concat]
      rw [hlast]
      change Covers _ _ _
      rw [full_page_next hseg.sorted (List.getElem?_eq_getElem hlt)]
      exact htaken
    · simp only [if_neg hfull]
      have hrest : placeBefore (page.items.map (·.key)) (n + 1) (nextPlace page.nextCursor) =
          nextPlace page.nextCursor := by
        rw [placeBefore, List.getElem?_eq_none (by rw [List.length_map]; omega)]
      rw [hrest] at htaken
      cases hnext : page.nextCursor with
      | none =>
        rw [hnext] at htaken
        exact htaken
      | some cursor =>
        rw [hnext] at htaken
        exact ⟨by omega, htaken⟩

end Turn

/-! ## Traversals -/

/-- Where a traversal is. -/
inductive ListingPhase where
  /-- The next request has no `from`, or the `next` of the last page. -/
  | between (start : Option String)
  | serving (effectiveLimit : Nat) (now : Rat) (accumulated : List SubordinateRecord)
      (storeCursor : Option String) (pagesFetched : Nat)
  | finished
  /-- A request was answered with an error. -/
  | broken
  deriving DecidableEq

/-- The store, the pages that have been answered, and what the turns of the loop have met: the
store at that moment, and the time of the request. -/
structure ListingState where
  store : MemoryState
  phase : ListingPhase := .between none
  pages : List (List SubordinateRecord) := []
  met : List (MemoryState × Rat) := []

section Traversal

variable (config : ExtendedListingConfig) (query : ListingQuery)

/-- A request arrives; its cursor has to be that of a record. -/
def ListingState.request (S : ListingState) (start : Option String) (limit : Option ℕ+) (now : Rat) :
    ListingState :=
  if start.any fun id => (S.store.getSubordinate id).isNone then { S with phase := .broken }
  else
    let effectiveLimit := min (limit.getD config.defaultPageSize) config.maxPageSize
    { S with phase := .serving effectiveLimit now [] start 0 }

/-- A turn of the loop has ended. -/
def ListingState.afterTurn (S : ListingState) (effectiveLimit : Nat) (now : Rat)
    (pagesFetched : Nat) : Except StorageError ListingTurn → ListingState
  | .error _ => { S with phase := .broken }
  | .ok (.again accumulated storeCursor) =>
    { S with phase := .serving effectiveLimit now accumulated (some storeCursor) (pagesFetched + 1) }
  | .ok (.page accumulated none) =>
    { S with phase := .finished, pages := S.pages ++ [accumulated] }
  | .ok (.page accumulated (some next)) =>
    { S with phase := .between (some next), pages := S.pages ++ [accumulated] }

/-- The steps of a traversal, among writes. A response can fail while its claims are gathered. -/
inductive ListingStep : ListingState → ListingState → Prop
  | write {S : ListingState} (m : Mutation) (now : Rat) :
      ListingStep S { S with store := (m.apply now S.store).2 }
  | request {S : ListingState} {start : Option String} (limit : Option ℕ+) (now : Rat) :
      S.phase = .between start → ListingStep S (S.request config start limit now)
  | turn {S : ListingState} {effectiveLimit : Nat} {now : Rat}
      {accumulated : List SubordinateRecord} {storeCursor : Option String} {pagesFetched : Nat} :
      S.phase = .serving effectiveLimit now accumulated storeCursor pagesFetched →
        ListingStep S ({ S with met := S.met ++ [(S.store, now)] }.afterTurn effectiveLimit now
          pagesFetched (listingTurn config query effectiveLimit now accumulated storeCursor
            pagesFetched S.store))
  | fails {S : ListingState} : ListingStep S { S with phase := .broken }

def extendedListing : System where
  St := ListingState
  init S := Keyed S.store ∧ S = { store := S.store }
  step := ListingStep config query

/-- The identifiers that have been returned. -/
def ListingState.returned (S : ListingState) : List Utf16 := S.pages.flatten.map (·.key)

/-- The record has been there, and has matched, at every turn. -/
def ListingState.Steady (S : ListingState) (k : Utf16) : Prop :=
  ∀ m ∈ S.met, Listed (query.filter m.2) (query.options config none) m.1 k

/-- What has been returned and gathered covers the steady records up to where the traversal is. -/
structure Traversed (S : ListingState) : Prop where
  keyed : Keyed S.store
  sorted : S.returned.Pairwise (· < ·)
  between : ∀ start, S.phase = .between start →
    Covers (S.Steady config query) S.returned (cursorPlace start)
  serving : ∀ effectiveLimit now accumulated storeCursor pagesFetched,
    S.phase = .serving effectiveLimit now accumulated storeCursor pagesFetched →
      accumulated.length < effectiveLimit ∧ (storeCursor = none → pagesFetched = 0) ∧
      Covers (S.Steady config query) (S.returned ++ accumulated.map (·.key))
        (cursorPlace storeCursor)
  finished : S.phase = .finished → Covers (S.Steady config query) S.returned .finish

variable {config query} {S S' : ListingState}

theorem Traversed.broken (h : Traversed config query S) (hphase : S'.phase = .broken)
    (hstore : S'.store = S.store) (hpages : S'.pages = S.pages) : Traversed config query S' := by
  have hreturned : S'.returned = S.returned := by rw [ListingState.returned, hpages]; rfl
  refine ⟨by rw [hstore]; exact h.keyed, by rw [hreturned]; exact h.sorted, ?_, ?_, ?_⟩
  · simp [hphase]
  · simp [hphase]
  · simp [hphase]

theorem Traversed.request (h : Traversed config query S) {start : Option String}
    (hphase : S.phase = .between start) (limit : Option ℕ+) (now : Rat) :
    Traversed config query (S.request config start limit now) := by
  unfold ListingState.request
  split
  · exact h.broken rfl rfl rfl
  · refine ⟨h.keyed, h.sorted, by simp, ?_, by simp⟩
    intro effectiveLimit now' accumulated storeCursor pagesFetched heq
    obtain ⟨rfl, rfl, rfl, rfl, rfl⟩ := ListingPhase.serving.inj heq
    refine ⟨lt_min (limit.getD config.defaultPageSize).pos config.maxPageSize.pos, fun _ => rfl, ?_⟩
    rw [List.map_nil, List.append_nil]
    exact h.between start hphase

/-- A turn covers what is steady up to then. -/
theorem listingTurn_covers (h : Traversed config query S) {effectiveLimit : Nat} {now : Rat}
    {accumulated : List SubordinateRecord} {storeCursor : Option String} {pagesFetched : Nat}
    (hphase : S.phase = .serving effectiveLimit now accumulated storeCursor pagesFetched)
    {turn : ListingTurn} (hturn : listingTurn config query effectiveLimit now accumulated storeCursor
      pagesFetched S.store = .ok turn) :
    TurnCovers ({ S with met := S.met ++ [(S.store, now)] }.Steady config query) S.returned
      effectiveLimit turn := by
  obtain ⟨hroom, hfirst, hcovers⟩ := h.serving _ _ _ _ _ hphase
  have hcovers' : Covers ({ S with met := S.met ++ [(S.store, now)] }.Steady config query)
      (S.returned ++ accumulated.map (·.key)) (cursorPlace storeCursor) :=
    hcovers.mono fun k hk m hm => hk m (List.mem_append_left _ hm)
  unfold listingTurn at hturn
  split at hturn
  · cases hlist : S.store.list (query.filter now) (query.options config storeCursor) with
    | error e => simp [hlist, Except.map] at hturn
    | ok page =>
      rw [hlist] at hturn
      obtain rfl := Except.ok.inj hturn
      refine fillPage_covers hcovers' (list_segment h.keyed rfl hlist)
        (list_empty rfl (PNat.pos _) hlist) (fun k hk => ?_) hroom
      exact hk (S.store, now) (List.mem_append_right _ (.head _))
  · -- no more reads: there has been one, and it has left a cursor
    rename_i hstop
    obtain rfl := Except.ok.inj hturn
    have hmax := config.maxStorePagesPerRequest.pos
    cases storeCursor with
    | none =>
      have := hfirst rfl
      omega
    | some cursor => exact hcovers'

theorem Traversed.turn (h : Traversed config query S) {effectiveLimit : Nat} {now : Rat}
    {accumulated : List SubordinateRecord} {storeCursor : Option String} {pagesFetched : Nat}
    (hphase : S.phase = .serving effectiveLimit now accumulated storeCursor pagesFetched) :
    Traversed config query ({ S with met := S.met ++ [(S.store, now)] }.afterTurn effectiveLimit now
      pagesFetched (listingTurn config query effectiveLimit now accumulated storeCursor
        pagesFetched S.store)) := by
  have hreturned : ∀ (accumulated : List SubordinateRecord),
      (S.pages ++ [accumulated]).flatten.map (·.key) = S.returned ++ accumulated.map (·.key) := by
    intro accumulated
    rw [List.flatten_append, List.map_append, ListingState.returned]
    simp
  cases hturn : listingTurn config query effectiveLimit now accumulated storeCursor pagesFetched
      S.store with
  | error e => exact h.broken rfl rfl rfl
  | ok turn =>
    have hcovers := listingTurn_covers h hphase hturn
    cases turn with
    | again accumulated' cursor =>
      refine ⟨h.keyed, h.sorted, by simp [ListingState.afterTurn], ?_,
        by simp [ListingState.afterTurn]⟩
      intro _ _ _ _ _ heq
      obtain ⟨rfl, rfl, rfl, rfl, rfl⟩ := ListingPhase.serving.inj heq
      exact ⟨hcovers.1, by simp, hcovers.2⟩
    | page accumulated' next =>
      cases next with
      | none =>
        refine ⟨h.keyed, ?_, by simp [ListingState.afterTurn], by simp [ListingState.afterTurn],
          fun _ => ?_⟩
        · rw [ListingState.returned]
          exact (hreturned accumulated').symm ▸ hcovers.sorted
        · rw [ListingState.returned]
          exact (hreturned accumulated').symm ▸ hcovers
      | some next =>
        refine ⟨h.keyed, ?_, ?_, by simp [ListingState.afterTurn], by simp [ListingState.afterTurn]⟩
        · rw [ListingState.returned]
          exact (hreturned accumulated').symm ▸ hcovers.sorted
        · intro start heq
          obtain rfl := ListingPhase.between.inj heq
          rw [ListingState.returned]
          exact (hreturned accumulated').symm ▸ hcovers

theorem traversed_of_reach (h : (extendedListing config query).Reach S) :
    Traversed config query S := by
  refine h.invariant (I := fun S : ListingState => Traversed config query S) ?_ ?_
  · rintro S ⟨hkeyed, hstart⟩
    rw [hstart]
    refine ⟨hkeyed, .nil, ?_, by simp, by simp⟩
    intro start heq
    obtain rfl := ListingPhase.between.inj heq
    exact .start _
  · intro S S' hS hs
    cases hs with
    | write m now =>
      exact ⟨hS.keyed.apply m now, hS.sorted, hS.between, hS.serving, hS.finished⟩
    | request limit now hphase => exact hS.request hphase limit now
    | turn hphase => exact hS.turn hphase
    | fails => exact hS.broken rfl rfl rfl

/-- Over every traversal, among any writes, the records come in increasing order, and when no page
is left each record that was there and matched all the time has been returned once. -/
theorem listing_complete (h : (extendedListing config query).Reach S) :
    S.returned.Pairwise (· < ·) ∧
      (S.phase = .finished → ∀ k, S.Steady config query k → S.returned.count k = 1) :=
  have htraversed := traversed_of_reach h
  ⟨htraversed.sorted, fun hphase _ hk => (htraversed.finished hphase).count_eq_one hk⟩

end Traversal

/-! ## A run -/

/-- A choice of the next step. -/
inductive ListingMove where
  | write (m : Mutation)
  | request (limit : Option ℕ+)
  | turn

/-- The state that a choice leads to, at time 0; one that is not possible changes nothing. -/
def ListingMove.apply (config : ExtendedListingConfig) (query : ListingQuery) (S : ListingState)
    (move : ListingMove) : ListingState :=
  match move, S.phase with
  | .write m, _ => { S with store := (m.apply 0 S.store).2 }
  | .request limit, .between start => S.request config start limit 0
  | .turn, .serving effectiveLimit now accumulated storeCursor pagesFetched =>
    { S with met := S.met ++ [(S.store, now)] }.afterTurn effectiveLimit now pagesFetched
      (listingTurn config query effectiveLimit now accumulated storeCursor pagesFetched S.store)
  | _, _ => S

def listingRun (config : ExtendedListingConfig) (query : ListingQuery) (store : MemoryState)
    (moves : List ListingMove) : ListingState :=
  moves.foldl (ListingMove.apply config query) { store := store }

theorem reach_listingRun {config : ExtendedListingConfig} {query : ListingQuery}
    {store : MemoryState} (hkeyed : Keyed store) (moves : List ListingMove) :
    (extendedListing config query).Reach (listingRun config query store moves) := by
  unfold listingRun
  induction moves using List.reverseRecOn with
  | nil => exact .init ⟨hkeyed, rfl⟩
  | append_singleton moves move ih =>
    rw [List.foldl_concat]
    unfold ListingMove.apply
    split
    · exact ih.step (.write _ _)
    · rename_i hphase
      exact ih.step (.request _ _ hphase)
    · rename_i hphase
      exact ih.step (.turn hphase)
    · exact ih

def listedRecord (entityId : String) : SubordinateRecord where
  entityId := entityId
  jwks := .obj [("keys", .arr [])]
  createdAt := 0
  updatedAt := 0

/-- Two records are added and a page of one is read. Then two more are added, one of them before the
cursor, and the rest is read in pages of one read each. -/
def listingMoves (pageSize : ℕ+ := 1) : List ListingMove :=
  [.write (.add (listedRecord "https://a.example")), .write (.add (listedRecord "https://c.example")),
    .request (some pageSize), .turn, .write (.add (listedRecord "https://b.example")),
    .write (.add (listedRecord "https://d.example")), .request none, .turn, .turn, .request none,
    .turn]

def exampleListing (config : ExtendedListingConfig :=
    { maxStorePagesPerRequest := 1, storeBatchSize := some 1 }) : ListingState :=
  listingRun config {} ⟨.empty, none, none⟩ listingMoves

theorem exampleListing_complete :
    exampleListing.phase = .finished ∧
      exampleListing.returned = [⟨"https://a.example"⟩, ⟨"https://c.example"⟩,
        ⟨"https://d.example"⟩] ∧ exampleListing.returned.Pairwise (· < ·) := by
  refine ⟨by decide +kernel, by decide +kernel, ?_⟩
  exact (listing_complete (reach_listingRun (fun k r h => by simp at h) listingMoves)).1

end OidFed
