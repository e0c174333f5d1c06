import OidFed.Collection.Protocol
import OidFed.Collection.Store
import OidFed.Errors

/-!
# One query (`core/src/entity-collection/service.ts`)

The parts of `EntityCollectionService.query` between its calls of the store.

* `openQuery`: what is decided before the store is asked.
* `deadlines`, `eligibleEntries`: the entries that a request sees at a time, and the times at which
  they would cease to be seen. `eligibleEntries_stable`: up to the earliest of them, requests with
  one context see the same entries.
* `collectionPage`: a page, cut by its limit and by its size. `collectionPage_size`: what is
  returned serializes within the limit of bytes.
-/

namespace OidFed

open Js PrefixCode

structure CollectionResponder where
  entityId : String
  isTrustAnchor : Bool

structure EntityCollectionConfig where
  trustAnchors : List String
  responder : Option CollectionResponder := none
  maxPageSize : ℕ+ := 100
  cursorTtlSeconds : ℕ+ := 900
  maxResponseBytes : ℕ+ := 524288
  entityClaims : List String := []
  infoClaims : List String := []

structure EntityCollectionResponse where
  entities : List Json
  lastUpdated : Option Rat := none
  next : Option String := none
  deriving DecidableEq

/-- The response as `jsonResponse` serializes it. -/
def EntityCollectionResponse.toJson (response : EntityCollectionResponse) : Json :=
  .obj (("entities", .arr response.entities) ::
    (response.lastUpdated.toList.map fun t => ("last_updated", .num t)) ++
    response.next.toList.map fun next => ("next", .str next))

def uuidChars : List Char :=
  ['0', '1', '2', '3', '4', '5', '6', '7', '8', '9', 'a', 'b', 'c', 'd', 'e', 'f', '-']

/-- What `crypto.randomUUID()` returns. -/
structure Uuid where
  text : String
  length : text.toList.length = 36
  chars : ∀ c ∈ text.toList, c ∈ uuidChars

/-- `new TextEncoder().encode(JSON.stringify(value)).byteLength`. -/
def jsonBytes (host : CollectionHost) (value : Json) : Nat :=
  (stringify host.numberText value).utf8ByteSize

section Query

variable (config : EntityCollectionConfig) (host : CollectionHost)

/-! ## Before the store is asked -/

def supportedInfoClaims : List String := collectionInfoClaims ++ config.infoClaims

def unsupportedClaim (request : EntityCollectionRequest) : Option String :=
  let entityClaims := ["entity_id", "entity_types", "entity_infos", "trust_marks"] ++
    config.entityClaims
  ((request.entityClaims.getD []).find? fun claim => !entityClaims.contains claim).or <|
    (request.infoClaims.getD []).find? fun claim => !(supportedInfoClaims config).contains
      (splitInformationalClaim host claim (supportedInfoClaims config)).1

/-- The request with its Trust Anchor, or `none` where the response is empty in any case. -/
def openQuery (request : EntityCollectionRequest) :
    Except FederationError (Option EntityCollectionRequest) :=
  match unsupportedClaim config host request with
  | some claim => .error (federationError .UnsupportedClaim s!"Unsupported claim: {claim}")
  | none =>
    let supported (anchor : String) : Except FederationError (Option EntityCollectionRequest) :=
      if config.trustAnchors.contains anchor then
        .ok (some { request with trustAnchor := some anchor })
      else .error (federationError .InvalidTrustAnchor "Unsupported collection Trust Anchor")
    match request.trustAnchor, config.responder with
    | some anchor, _ => supported anchor
    | none, none => .error (federationError .InvalidRequest
        "trust_anchor is required when the responder has no Entity Identifier")
    | none, some responder =>
      if responder.isTrustAnchor then supported responder.entityId else .ok none

def EntityCollectionRequest.anchor (request : EntityCollectionRequest) : String :=
  request.trustAnchor.getD ""

/-- The cursor of a request, once the store has answered. -/
def checkCursor (request : EntityCollectionRequest) (now : Rat)
    (cursor : Option EntityCollectionCursor) :
    Except FederationError (Option EntityCollectionCursor) :=
  let notFound := federationError .PageNotFound "Unknown or expired collection cursor"
  match request.start, cursor with
  | none, _ => .ok none
  | some _, none => .error notFound
  | some _, some cursor =>
    if cursor.context ≠ collectionContext host request ∨ cursor.trustAnchor ≠ request.anchor ∨
        cursor.expiresAt ≤ now then .error notFound
    else .ok (some cursor)

/-! ## Eligible entries -/

/-- Whether an entry passes the filters that do not depend on the time. -/
def admitsEntity (request : EntityCollectionRequest) (entity : Json) : Bool :=
  let types := (((entity.get? "entity_types").bind Json.items?).getD [])
  ((request.entityType.getD []).isEmpty ||
    (request.entityType.getD []).any fun type => types.contains (.str type)) &&
  request.query.all fun query => query == "" ||
    decide ((host.toLowerCase query).toList <:+: (collectionText host entity).toList)

/-- The marks of a type that are valid at a time. -/
def validMarks (entry : CollectionEntry) (now : Rat) (type : String) : List (String × Rat) :=
  entry.verifiedMarks.filter fun mark => mark.1 == type && decide (now < mark.2)

/-- The times at which an eligible entry would cease to be eligible; `none` if it is not. -/
def deadlines (request : EntityCollectionRequest) (now : Rat) (entry : CollectionEntry) :
    Option (List Rat) :=
  if entry.expiresAt ≤ now ∨ entry.chainExpiresAt.any (fun t => decide (t ≤ now)) then none
  else if admitsEntity host request entry.entity then
    let marks := (request.trustMarkType.getD []).map (validMarks entry now)
    if marks.any (·.isEmpty) then none
    else some (entry.expiresAt :: entry.chainExpiresAt.toList ++
      marks.filterMap fun matching => (matching.map Prod.snd).max?)
  else none

def eligibleEntries (request : EntityCollectionRequest) (now : Rat)
    (snapshot : EntityCollectionSnapshot) : List CollectionEntry :=
  snapshot.entries.filter fun entry => (deadlines host request now entry).isSome

/-- Until when all eligible entries are eligible, at most as long as a cursor lasts. -/
def validUntil (request : EntityCollectionRequest) (now : Rat)
    (snapshot : EntityCollectionSnapshot) : Rat :=
  (snapshot.entries.flatMap fun entry => (deadlines host request now entry).getD []).foldl min
    (now + (config.cursorTtlSeconds : Nat))

/-! ## A page -/

/-- The loop over the entries of a page, of which each is projected and measured. -/
def fillCollectionPage (bytes : Nat) (page : List Json) :
    List Json → Except FederationError (List Json)
  | [] => .ok page
  | projected :: rest =>
    let size := jsonBytes host projected + if page.isEmpty then 0 else 1
    if config.maxResponseBytes < bytes + size then
      if page.isEmpty then
        .error (federationError .TemporarilyUnavailable
          "A collection entry exceeds the response size limit")
      else .ok page
    else fillCollectionPage (bytes + size) (page ++ [projected]) rest

def pageLimit (request : EntityCollectionRequest) : Nat :=
  min (request.limit.getD config.maxPageSize) config.maxPageSize

/-- The envelope with a cursor and without entities. -/
def envelope (snapshot : EntityCollectionSnapshot) : EntityCollectionResponse where
  entities := []
  lastUpdated := some snapshot.lastUpdated
  next := some "00000000-0000-0000-0000-000000000000"

/-- The page of a request and the cursor to be put, once the store has answered with the snapshot. -/
def collectionPage (request : EntityCollectionRequest) (now : Rat)
    (cursor : Option EntityCollectionCursor) (snapshot : Option EntityCollectionSnapshot) :
    Except FederationError (List Json × EntityCollectionSnapshot × Option EntityCollectionCursor) :=
  match snapshot with
  | none =>
    .error (federationError (if cursor.isSome then .PageNotFound else .TemporarilyUnavailable)
      "Collection snapshot is unavailable")
  | some snapshot =>
    if snapshot.trustAnchor ≠ request.anchor then
      .error (federationError .ServerError "Invalid collection storage namespace")
    else
      let entries := eligibleEntries host request now snapshot
      let start := (cursor.map (·.index)).getD 0
      let projected := ((entries.drop start).take (pageLimit config request)).map fun entry =>
        projectCollectionEntity host request (supportedInfoClaims config) entry.entity
      match fillCollectionPage config host (jsonBytes host (envelope snapshot).toJson) []
          projected with
      | .error e => .error e
      | .ok page =>
        let until_ := validUntil config host request now snapshot
        .ok (page, snapshot,
          if start + page.length < entries.length then
            some { snapshotId := snapshot.id, trustAnchor := request.anchor,
                   context := collectionContext host request, index := start + page.length,
                   expiresAt := (cursor.map (·.expiresAt)).elim until_ (min until_) }
          else none)

end Query

/-! ## Entries that stay eligible -/

section Eligible

variable {host : CollectionHost} {p q : EntityCollectionRequest}

theorem admitsEntity_congr (h : SameContext p q) (entity : Json) :
    admitsEntity host p entity = admitsEntity host q entity := by
  simp only [admitsEntity, h.entityType.isEmpty, h.entityType.any, h.query]

/-- An entry is eligible when neither it nor its chain has expired, its entity is admitted, and it
has a valid mark of every type that is asked for. -/
theorem deadlines_isSome_iff (now : Rat) (entry : CollectionEntry) :
    (deadlines host p now entry).isSome = true ↔
      now < entry.expiresAt ∧ (∀ t, entry.chainExpiresAt = some t → now < t) ∧
      admitsEntity host p entry.entity = true ∧
      ∀ type ∈ p.trustMarkType.getD [], ∃ mark ∈ entry.verifiedMarks, mark.1 = type ∧ now < mark.2 := by
  have hmarks : ((p.trustMarkType.getD []).map (validMarks entry now)).any (·.isEmpty) = false ↔
      ∀ type ∈ p.trustMarkType.getD [], ∃ mark ∈ entry.verifiedMarks,
        mark.1 = type ∧ now < mark.2 := by
    simp [validMarks, List.any_eq_false]
  have hexpired : (entry.expiresAt ≤ now ∨
      entry.chainExpiresAt.any (fun t => decide (t ≤ now)) = true) ↔
        ¬ (now < entry.expiresAt ∧ ∀ t, entry.chainExpiresAt = some t → now < t) := by
    rw [not_and_or, not_lt]
    cases entry.chainExpiresAt with
    | none => simp
    | some t => simp
  rw [deadlines]
  by_cases hlive : now < entry.expiresAt ∧ ∀ t, entry.chainExpiresAt = some t → now < t
  · rw [if_neg (fun h => hexpired.mp h hlive)]
    by_cases hadmits : admitsEntity host p entry.entity = true
    · rw [if_pos hadmits, ← hmarks]
      cases hany : ((p.trustMarkType.getD []).map (validMarks entry now)).any (·.isEmpty) with
      | true => simp [hany]
      | false => simpa [hany, hadmits] using hlive
    · rw [if_neg hadmits]
      simp [hadmits]
  · rw [if_pos (hexpired.mpr hlive)]
    constructor
    · intro h
      simp at h
    · rintro ⟨hexpires, hchain, -⟩
      exact absurd ⟨hexpires, hchain⟩ hlive

/-- The deadlines of an eligible entry: one for each of the times that it depends on. -/
theorem mem_deadlines {now : Rat} {entry : CollectionEntry} {times : List Rat}
    (h : deadlines host p now entry = some times) :
    entry.expiresAt ∈ times ∧ (∀ t, entry.chainExpiresAt = some t → t ∈ times) ∧
      ∀ type ∈ p.trustMarkType.getD [], ∃ mark ∈ entry.verifiedMarks,
        mark.1 = type ∧ mark.2 ∈ times := by
  unfold deadlines at h
  split at h
  · simp at h
  · split at h
    · simp only at h
      split at h
      · simp at h
      · rename_i hany
        obtain rfl := Option.some.inj h
        refine ⟨by simp, fun t ht => by simp [ht], fun type htype => ?_⟩
        have hne : validMarks entry now type ≠ [] := by
          intro hnil
          refine hany (List.any_eq_true.mpr ⟨_, List.mem_map.mpr ⟨type, htype, rfl⟩, ?_⟩)
          rw [hnil]
          rfl
        -- the latest mark of the type is the one whose time counts
        obtain ⟨t, ht⟩ : ∃ t, ((validMarks entry now type).map Prod.snd).max? = some t :=
          Option.isSome_iff_exists.mp (by simpa [Option.isSome_iff_ne_none] using hne)
        obtain ⟨mark, hmark, rfl⟩ := List.mem_map.mp (List.max?_mem ht)
        obtain ⟨hmem, htypes⟩ := List.mem_filter.mp hmark
        refine ⟨mark, hmem, by simpa using (Bool.and_eq_true_iff.mp htypes).1, ?_⟩
        refine List.mem_append_right _ (List.mem_filterMap.mpr ⟨_, ?_, ht⟩)
        exact List.mem_map.mpr ⟨type, htype, rfl⟩
    · simp at h

/-- What is not eligible does not become eligible, and what is eligible stays so until the first of
its deadlines. -/
theorem deadlines_stable (h : SameContext p q) {now later : Rat} (hle : now ≤ later)
    {entry : CollectionEntry}
    (huntil : ∀ t ∈ (deadlines host p now entry).getD [], later < t) :
    (deadlines host q later entry).isSome = (deadlines host p now entry).isSome := by
  rw [Bool.eq_iff_iff, deadlines_isSome_iff, ← admitsEntity_congr h]
  constructor
  · rintro ⟨hexpires, hchain, hadmits, hmarks⟩
    refine (deadlines_isSome_iff now entry).mpr
      ⟨lt_of_le_of_lt hle hexpires, fun t ht => lt_of_le_of_lt hle (hchain t ht), hadmits, ?_⟩
    intro type htype
    obtain ⟨mark, hmem, hmtype, hvalid⟩ := hmarks type ((h.trustMarkType.mem_iff type).mp htype)
    exact ⟨mark, hmem, hmtype, lt_of_le_of_lt hle hvalid⟩
  · intro hsome
    obtain ⟨times, htimes⟩ := Option.isSome_iff_exists.mp hsome
    obtain ⟨-, -, hadmits, -⟩ := (deadlines_isSome_iff now entry).mp hsome
    obtain ⟨hexpires, hchain, hmarks⟩ := mem_deadlines htimes
    rw [htimes, Option.getD_some] at huntil
    refine ⟨huntil _ hexpires, fun t ht => huntil t (hchain t ht), hadmits, fun type htype => ?_⟩
    obtain ⟨mark, hmem, hmtype, hvalid⟩ := hmarks type ((h.trustMarkType.mem_iff type).mpr htype)
    exact ⟨mark, hmem, hmtype, huntil _ hvalid⟩

theorem lt_of_lt_foldl_min {l : List Rat} {a t : Rat} (h : t < l.foldl min a) :
    t < a ∧ ∀ b ∈ l, t < b := by
  induction l generalizing a with
  | nil => exact ⟨h, by simp⟩
  | cons b l ih =>
    obtain ⟨hmin, hl⟩ := ih h
    obtain ⟨ha, hb⟩ := lt_min_iff.mp hmin
    refine ⟨ha, fun c hc => ?_⟩
    rcases List.mem_cons.mp hc with rfl | hc
    · exact hb
    · exact hl c hc

/-- Until the cursor of a page expires, requests with its context see the same entries. -/
theorem eligibleEntries_stable {config : EntityCollectionConfig} (h : SameContext p q)
    {now later : Rat} (hle : now ≤ later) {snapshot : EntityCollectionSnapshot}
    (huntil : later < validUntil config host p now snapshot) :
    eligibleEntries host q later snapshot = eligibleEntries host p now snapshot := by
  refine List.filter_congr fun entry hentry => deadlines_stable h hle fun t ht => ?_
  exact (lt_of_lt_foldl_min huntil).2 t (List.mem_flatMap.mpr ⟨entry, hentry, ht⟩)

end Eligible

/-! ## The size of a page -/

section Size

variable {config : EntityCollectionConfig} {host : CollectionHost}

theorem jsonBytes_eq (value : Json) :
    jsonBytes host value = String.utf8Len (jsonText host.numberText value) :=
  String.utf8ByteSize_ofList _

/-- The bytes of entities and of the commas between them. -/
def entitiesBytes (host : CollectionHost) (page : List Json) : Nat :=
  (page.map (jsonBytes host)).sum + (page.length - 1)

theorem entitiesBytes_concat (page : List Json) (v : Json) :
    entitiesBytes host (page ++ [v]) =
      entitiesBytes host page + (jsonBytes host v + if page.isEmpty then 0 else 1) := by
  cases page with
  | nil => simp [entitiesBytes]
  | cons w page =>
    simp only [entitiesBytes, List.map_append, List.sum_append, List.length_append,
      List.length_cons, List.isEmpty_cons, List.map_cons, List.sum_cons, List.map_nil,
      List.sum_nil, List.length_nil]
    simp
    omega

theorem utf8Len_separated (page : List Json) :
    String.utf8Len (separated ',' (itemJsonTexts host.numberText page)) =
      entitiesBytes host page := by
  rw [itemJsonTexts_eq]
  cases page with
  | nil => rfl
  | cons v page =>
    rw [separated_map_cons, String.utf8Len_append, entitiesBytes, List.map_cons, List.sum_cons,
      jsonBytes_eq]
    have hrest : String.utf8Len (page.flatMap fun a => ',' :: jsonText host.numberText a) =
        (page.map (jsonBytes host)).sum + page.length := by
      induction page with
      | nil => rfl
      | cons w page ih =>
        rw [List.flatMap_cons, String.utf8Len_append, ih, List.map_cons, List.sum_cons,
          List.length_cons, jsonBytes_eq, String.utf8Len_cons]
        have hcomma : Char.utf8Size ',' = 1 := rfl
        omega
    rw [hrest, List.length_cons]
    omega

theorem jsonBytes_arr (page : List Json) :
    jsonBytes host (.arr page) = entitiesBytes host page + 2 := by
  rw [jsonBytes_eq, jsonText, List.cons_append, String.utf8Len_cons, String.utf8Len_append,
    utf8Len_separated]
  rfl

/-- The bytes of a member with its name. -/
def memberBytes (host : CollectionHost) (p : String × Json) : Nat :=
  String.utf8Len (quote p.1) + 1 + jsonBytes host p.2

theorem utf8Len_member (p : String × Json) :
    String.utf8Len (quote p.1 ++ ':' :: jsonText host.numberText p.2) = memberBytes host p := by
  rw [String.utf8Len_append, String.utf8Len_cons, memberBytes, jsonBytes_eq]
  have hcolon : Char.utf8Size ':' = 1 := rfl
  omega

theorem jsonBytes_obj (p : String × Json) (rest : List (String × Json)) :
    jsonBytes host (.obj (p :: rest)) =
      memberBytes host p + (rest.map fun p => memberBytes host p + 1).sum + 2 := by
  have hrest : String.utf8Len (rest.flatMap fun p =>
      ',' :: (quote p.1 ++ ':' :: jsonText host.numberText p.2)) =
        (rest.map fun p => memberBytes host p + 1).sum := by
    induction rest with
    | nil => rfl
    | cons q rest ih =>
      rw [List.flatMap_cons, String.utf8Len_append, ih, List.map_cons, List.sum_cons,
        String.utf8Len_cons, utf8Len_member]
      rfl
  rw [jsonBytes_eq, jsonText, memberJsonTexts_eq, separated_map_cons, List.cons_append,
    String.utf8Len_cons, String.utf8Len_append, String.utf8Len_append, utf8Len_member, hrest]
  rfl

/-- Every identifier takes the same place. -/
theorem jsonBytes_uuid (uuid : Uuid) : jsonBytes host (.str uuid.text) = 38 := by
  have hchar : ∀ c ∈ uuidChars, quoteChar c = [c] ∧ c.utf8Size = 1 := by
    simp [uuidChars, quoteChar, escapeLetter, escapes, List.lookup, Char.utf8Size]
  have hplain : ∀ l : List Char, (∀ c ∈ l, c ∈ uuidChars) →
      String.utf8Len (l.flatMap quoteChar) = l.length := by
    intro l
    induction l with
    | nil => exact fun _ => rfl
    | cons c l ih =>
      intro hl
      obtain ⟨hquote, hsize⟩ := hchar c (hl c (.head l))
      rw [List.flatMap_cons, hquote, String.utf8Len_append, ih fun d hd => hl d (.tail c hd),
        String.utf8Len_cons, hsize, List.length_cons]
      change 0 + 1 + l.length = l.length + 1
      omega
  rw [jsonBytes_eq, jsonText, quote, List.cons_append, String.utf8Len_cons, String.utf8Len_append,
    hplain _ uuid.chars, uuid.length]
  rfl

/-- The identifier in the place of which the envelope keeps room. -/
def nilUuid : Uuid := ⟨"00000000-0000-0000-0000-000000000000", by simp, by simp [uuidChars]⟩

/-- A page takes its entities' bytes beyond those of the envelope, or less without a cursor. -/
theorem response_bytes (snapshot : EntityCollectionSnapshot) (page : List Json)
    (next : Option Uuid) :
    jsonBytes host (EntityCollectionResponse.toJson
        ⟨page, some snapshot.lastUpdated, next.map (·.text)⟩) ≤
      jsonBytes host (envelope snapshot).toJson + entitiesBytes host page := by
  have hnil : jsonBytes host (.str "00000000-0000-0000-0000-000000000000") = 38 :=
    jsonBytes_uuid nilUuid
  have hempty : entitiesBytes host [] = 0 := rfl
  cases next with
  | none =>
    simp only [EntityCollectionResponse.toJson, envelope, jsonBytes_obj, memberBytes,
      jsonBytes_arr, Option.toList_some, Option.toList_none, Option.map_none, List.map_cons,
      List.map_nil, List.append_nil, List.cons_append, List.nil_append, List.sum_cons,
      List.sum_nil, hnil, hempty]
    omega
  | some uuid =>
    simp only [EntityCollectionResponse.toJson, envelope, jsonBytes_obj, memberBytes,
      jsonBytes_arr, Option.toList_some, Option.map_some, List.map_cons, List.map_nil,
      List.cons_append, List.nil_append, List.sum_cons, List.sum_nil, hnil, hempty,
      jsonBytes_uuid uuid]
    omega

/-- The loop takes the first of the entities, at least one if there is one, and no more than fit. -/
theorem fillCollectionPage_spec (base : Nat) {bytes : Nat} {page rest result : List Json}
    (h : fillCollectionPage config host bytes page rest = .ok result)
    (hbytes : bytes = base + entitiesBytes host page)
    (hfits : page ≠ [] → bytes ≤ config.maxResponseBytes) :
    (∃ n, result = page ++ rest.take n) ∧ (rest ≠ [] → result ≠ []) ∧
      (result ≠ [] → base + entitiesBytes host result ≤ config.maxResponseBytes) := by
  induction rest generalizing bytes page with
  | nil =>
    obtain rfl := Except.ok.inj h
    exact ⟨⟨0, by simp⟩, by simp, fun hne => hbytes ▸ hfits hne⟩
  | cons v rest ih =>
    rw [fillCollectionPage] at h
    by_cases hlarge : (config.maxResponseBytes : Nat) <
        bytes + (jsonBytes host v + if page.isEmpty then 0 else 1)
    · rw [if_pos hlarge] at h
      split at h
      · simp at h
      · rename_i hpage
        have hne : page ≠ [] := by simpa using hpage
        obtain rfl := Except.ok.inj h
        exact ⟨⟨0, by simp⟩, fun _ => hne, fun _ => hbytes ▸ hfits hne⟩
    · rw [if_neg hlarge] at h
      obtain ⟨⟨n, hn⟩, -, hsize⟩ := ih h
        (by rw [entitiesBytes_concat, hbytes, Nat.add_assoc]) (fun _ => by omega)
      refine ⟨⟨n + 1, ?_⟩, fun _ hnil => ?_, hsize⟩
      · rw [hn, List.append_assoc, List.singleton_append, List.take_succ_cons]
      · rw [hn] at hnil
        simp at hnil

end Size

/-! ## What a page is -/

/-- A page that the service has answered with, and where its cursor goes on. -/
structure IsPage (config : EntityCollectionConfig) (host : CollectionHost)
    (request : EntityCollectionRequest) (now : Rat) (start : Nat)
    (snapshot : EntityCollectionSnapshot) (page : List Json) : Prop where
  /-- Its entities come after those before the cursor. -/
  part : ∃ n, page = (((eligibleEntries host request now snapshot).drop start).take n).map
    fun entry => projectCollectionEntity host request (supportedInfoClaims config) entry.entity
  progress : 1 ≤ pageLimit config request →
    start + page.length < (eligibleEntries host request now snapshot).length → page ≠ []
  size : page ≠ [] → ∀ next : Option Uuid, jsonBytes host (EntityCollectionResponse.toJson
    ⟨page, some snapshot.lastUpdated, next.map (·.text)⟩) ≤ config.maxResponseBytes

theorem collectionPage_eq_ok {config : EntityCollectionConfig} {host : CollectionHost}
    {request : EntityCollectionRequest} {now : Rat} {cursor next : Option EntityCollectionCursor}
    {found : Option EntityCollectionSnapshot} {snapshot : EntityCollectionSnapshot}
    {page : List Json}
    (h : collectionPage config host request now cursor found = .ok (page, snapshot, next)) :
    found = some snapshot ∧
      IsPage config host request now ((cursor.map (·.index)).getD 0) snapshot page ∧
      next = if (cursor.map (·.index)).getD 0 + page.length <
          (eligibleEntries host request now snapshot).length then
        some { snapshotId := snapshot.id, trustAnchor := request.anchor,
               context := collectionContext host request,
               index := (cursor.map (·.index)).getD 0 + page.length,
               expiresAt := (cursor.map (·.expiresAt)).elim
                 (validUntil config host request now snapshot)
                 (min (validUntil config host request now snapshot)) }
      else none := by
  unfold collectionPage at h
  split at h
  · simp at h
  · rename_i snapshot'
    split at h
    · simp at h
    · simp only at h
      split at h
      · simp at h
      · rename_i page' hfill
        simp only [Except.ok.injEq, Prod.mk.injEq] at h
        obtain ⟨rfl, rfl, rfl⟩ := h
        obtain ⟨⟨n, hn⟩, hprogress, hsize⟩ :=
          fillCollectionPage_spec (jsonBytes host (envelope snapshot').toJson) hfill
            (Nat.add_zero _).symm (by simp)
        refine ⟨rfl, ⟨⟨min n (pageLimit config request), ?_⟩, fun hlimit hmore => ?_,
          fun hne uuid => le_trans (response_bytes _ _ _) (hsize hne)⟩, rfl⟩
        · rw [hn, List.nil_append, ← List.map_take, List.take_take]
        · refine hprogress fun hnil => ?_
          have hlength := congrArg List.length hnil
          rw [List.length_map, List.length_take, List.length_drop, List.length_nil] at hlength
          omega

end OidFed
