import OidFed.Client.FederationApi
import OidFed.Storage.MarkQueries

/-!
# The entities with a Trust Mark (`authority/src/endpoints/trust-mark-list.ts`, `trust-mark.ts`)

`createTrustMarkListHandler` reads the valid marks of a type page after page, each from the state
that the storage has then. `createTrustMarkHandler` hands out one of them.

* `listValid_segment`: a page holds the next subjects of the state in which it is read.
* `listMarkPages`: the loop over the pages. `listMarkPages_read`: its cursors increase, so none is
  repeated, and each subject is looked at in one of the states.
* `validSubjects_of_reach`: in every run of issuances, marks are for Entity Identifiers.
* `trustMarkList_received`: a client gets the subjects for which the other endpoint would have
  handed out a mark when their page was read.
-/

namespace OidFed

open Js Keyset Exclusive

/-! ## The endpoints -/

section Handlers

variable (P : Platform)

/-- Trust Mark retrieval endpoint. Returns an active trust mark or 404 if not found. -/
def createTrustMarkHandler (state : MemoryState) (now : Rat) (request : Request) : Response :=
  match requireMethod request "GET" with
  | some methodError => methodError
  | none =>
    if state.trustMarks.isNone then
      errorResponse 501 "server_error" "Trust mark store not configured"
    else
      let trustMarkType := (queryParam request "trust_mark_type").getD ""
      let sub := (queryParam request "sub").getD ""
      if trustMarkType = "" then
        errorResponse 400 FederationErrorCode.InvalidRequest.text "Missing 'trust_mark_type' parameter"
      else if sub = "" || !isValidEntityId P sub then
        errorResponse 400 FederationErrorCode.InvalidRequest.text "Missing or invalid 'sub' parameter"
      else
        match state.getValid trustMarkType sub now with
        | .error _ => errorResponse 500 "server_error" "Failed to retrieve trust mark"
        | .ok (some existing) => jwtResponse existing.jwt MediaType.trustMark
        | .ok none => errorResponse 404 FederationErrorCode.NotFound.text "Trust mark not found"

/-- The time of a request, and the states of the storage at its reads. -/
structure TrustMarkListRun where
  configured : Bool := true
  validAt : Rat
  reads : Nat → MemoryState

inductive ListMarksError where
  | listValid (e : ListValidError)
  | repeatedCursor

/-- The turns of the loop from the `n`-th page on, as many as there is fuel for. -/
def listMarkPages (run : TrustMarkListRun) (trustMarkType : String) (sub : Option String) :
    Nat → Nat → Option String → List String → List String → Option (Except ListMarksError (List String))
  | 0, _, _, _, _ => none
  | fuel + 1, n, cursor, seenCursors, entityIds =>
    match (run.reads n).listValid trustMarkType run.validAt
        { limit := 500, cursor, subject := sub } with
    | .error e => some (.error (.listValid e))
    | .ok result =>
      let entityIds := entityIds ++ result.items.map (·.subject)
      match result.nextCursor.filter (· != "") with
      | none => some (.ok entityIds)
      | some next =>
        if seenCursors.contains next then some (.error .repeatedCursor)
        else listMarkPages run trustMarkType sub fuel (n + 1) (some next) (next :: seenCursors) entityIds

/-- Handles trust mark list requests, returning entity IDs with active marks of a given type. -/
def createTrustMarkListHandler (fuel : Nat) (run : TrustMarkListRun) (request : Request) :
    Option Response :=
  match requireMethod request "GET" with
  | some methodError => some methodError
  | none =>
    if !run.configured then
      some (errorResponse 501 "server_error" "Trust mark store not configured")
    else
      let trustMarkType := (queryParam request "trust_mark_type").getD ""
      let sub := (queryParam request "sub").filter (· != "")
      if trustMarkType = "" then
        some (errorResponse 400 FederationErrorCode.InvalidRequest.text
          "Missing 'trust_mark_type' parameter")
      else if sub.any fun sub => !isValidEntityId P sub then
        some (errorResponse 400 FederationErrorCode.InvalidRequest.text "Invalid 'sub' parameter")
      else
        match listMarkPages run trustMarkType sub fuel 0 none [] [] with
        | none => none
        | some (.ok entityIds) => some (jsonResponse (.arr (entityIds.map .str)))
        | some (.error _) => some (errorResponse 500 "server_error" "Failed to list trust marks")

end Handlers

/-! ## A page -/

section Page

variable {state : MemoryState} {validAt : Rat}

/-- A subject that is asked for has a valid mark of a type. -/
def HasValid (trustMarkType : String) (validAt : Rat) (sub : Option String) (state : MemoryState)
    (k : Utf16) : Prop :=
  sub.all (k.text == ·) = true ∧ (newestMark state validAt trustMarkType k.text).isSome

theorem mem_listedMarks (hk : MarksKept state) (trustMarkType : String) (sub : Option String)
    (k : Utf16) : k ∈ (MemoryState.listedMarks trustMarkType validAt sub
        ((marksOf state).members.map Prod.snd)).map (fun record => Utf16.mk record.subject) ↔
      HasValid trustMarkType validAt sub state k := by
  have hfind : (MemoryState.listedMarks trustMarkType validAt sub
      ((marksOf state).members.map Prod.snd)).find? (fun r => r.subject == k.text) = _ :=
    find?_listedMarks hk trustMarkType sub k.text
  rw [HasValid, List.mem_map]
  constructor
  · rintro ⟨record, hmem, rfl⟩
    have hsome : ((MemoryState.listedMarks trustMarkType validAt sub
        ((marksOf state).members.map Prod.snd)).find? fun r => r.subject == record.subject).isSome :=
      List.find?_isSome.mpr ⟨record, hmem, beq_self_eq_true _⟩
    rw [hfind] at hsome
    split at hsome
    · rename_i hall
      exact ⟨hall, hsome⟩
    · cases hsome
  · rintro ⟨hall, hsome⟩
    rw [if_pos hall] at hfind
    rw [← hfind] at hsome
    obtain ⟨record, hrecord⟩ := Option.isSome_iff_exists.mp hsome
    have hsubject : record.subject = k.text := by simpa using List.find?_some hrecord
    exact ⟨record, List.mem_of_find?_eq_some hrecord, congrArg Utf16.mk hsubject⟩

/-- A cursor leaves the subjects that its place has not passed. -/
theorem all_textLe_iff (cursor : Option String) (subject : String) :
    cursor.all (textLe · subject) = true ↔ ¬ (cursorPlace cursor).Passed ⟨subject⟩ := by
  cases cursor with
  | none => exact ⟨fun _ hp => hp, fun _ => rfl⟩
  | some cursor => rw [Option.all_some, textLe_iff, cursorPlace, Position.Passed, not_lt]

/-- A page of a list from a cursor on, and the place at which it ends. -/
theorem listValid_segment (hk : MarksKept state) {limit : Rat} {n : ℕ+}
    (hlimit : markPageLimit limit = some n) (trustMarkType : String) (sub cursor : Option String) :
    ∃ page, state.listValid trustMarkType validAt { limit, cursor, subject := sub } = .ok page ∧
      Segment (HasValid trustMarkType validAt sub state) (cursorPlace cursor)
        (nextPlace page.nextCursor) (page.items.map fun record => Utf16.mk record.subject) ∧
      (page.nextCursor ≠ none → page.items.length = n) := by
  let records := MemoryState.listedMarks trustMarkType validAt sub ((marksOf state).members.map Prod.snd)
  let rest := records.filter fun record => cursor.all (textLe · record.subject)
  have hsorted : (rest.map fun record => Utf16.mk record.subject).Pairwise (· < ·) := by
    rw [List.pairwise_map]
    exact (sorted_sortedLatest _ _).sublist List.filter_sublist
  have hmem : ∀ k, k ∈ rest.map (fun record => Utf16.mk record.subject) ↔
      HasValid trustMarkType validAt sub state k ∧ ¬ (cursorPlace cursor).Passed k := by
    intro k
    rw [← mem_listedMarks hk]
    simp only [rest, List.mem_map, List.mem_filter, all_textLe_iff]
    constructor
    · rintro ⟨record, ⟨hrecord, hle⟩, rfl⟩
      exact ⟨⟨record, hrecord, rfl⟩, hle⟩
    · rintro ⟨⟨record, hrecord, rfl⟩, hle⟩
      exact ⟨record, ⟨hrecord, hle⟩, rfl⟩
  have hpage := page_segment hsorted hmem n
  have hnext : nextPlace (rest[(n : Nat)]?.map (·.subject)) =
      placeBefore (rest.map fun record => Utf16.mk record.subject) n .finish := by
    rw [placeBefore, List.getElem?_map]
    cases rest[(n : Nat)]? <;> rfl
  rw [← hnext, ← List.map_take] at hpage
  refine ⟨_, listValid_page hk hlimit trustMarkType sub cursor rfl, hpage, fun hmore => ?_⟩
  have hlt : (n : Nat) < rest.length := by
    rw [← not_le]
    intro hlast
    exact hmore (congrArg (Option.map (·.subject)) (List.getElem?_eq_none hlast))
  exact List.length_take_of_le hlt.le

end Page

/-! ## The loop -/

theorem not_lt_empty (k : Utf16) : ¬ k < ⟨""⟩ := by
  have hnil : ¬ utf16 k.text < utf16 "" := List.not_lt_nil _
  exact hnil

/-- A page that is not empty ends after the place at which it begins. -/
theorem Segment.lt_next {visible : Utf16 → Prop} {cursor : Option String} {next : String}
    {keys : List Utf16} (h : Segment visible (cursorPlace cursor) (nextPlace (some next)) keys)
    (hne : keys ≠ []) : next ≠ "" ∧ ∀ current, cursor = some current →
      Utf16.mk current < Utf16.mk next := by
  obtain ⟨k, hmem⟩ := List.exists_mem_of_ne_nil keys hne
  obtain ⟨-, hfrom, hto⟩ := (h.mem_iff k).mp hmem
  have hlt : k < Utf16.mk next := hto
  refine ⟨?_, ?_⟩
  · rintro rfl
    exact not_lt_empty k hlt
  · rintro current rfl
    have hle : Utf16.mk current ≤ k := not_lt.mp hfrom
    exact lt_of_le_of_lt hle hlt

section Loop

variable {run : TrustMarkListRun} {trustMarkType : String} {sub : Option String}

/-- The marks of the state in which a page is read. -/
def TrustMarkListRun.visible (run : TrustMarkListRun) (trustMarkType : String)
    (sub : Option String) (n : Nat) : Utf16 → Prop :=
  HasValid trustMarkType run.validAt sub (run.reads n)

/-- What has been listed is among the subjects of the storage. -/
theorem length_le_subjects {subjects entityIds : List String} {p : Position Utf16} {n : Nat}
    {readAt : Utf16 → Nat}
    (hsubjects : ∀ n jwt record, (marksOf (run.reads n)).get? jwt = some record →
      record.subject ∈ subjects)
    (h : ReadUpTo (run.visible trustMarkType sub) (entityIds.map Utf16.mk) p n readAt) :
    entityIds.length ≤ subjects.length := by
  have hnodup : entityIds.Nodup :=
    List.Nodup.of_map Utf16.mk (h.sorted.imp fun hlt => ne_of_lt hlt)
  refine (hnodup.subperm fun s hs => ?_).length_le
  obtain ⟨-, -, hvalid⟩ := (h.mem_iff ⟨s⟩).mp (List.mem_map_of_mem hs)
  obtain ⟨record, hmem, -, rfl, -⟩ := isSome_newestMark.mp hvalid
  obtain ⟨jwt, hget⟩ := mem_marks.mp hmem
  exact hsubjects _ jwt record hget

/-- From a cursor on, the loop reads the rest of the marks. -/
theorem listMarkPages_read {subjects : List String} (hkept : ∀ n, MarksKept (run.reads n))
    (hsubjects : ∀ n jwt record, (marksOf (run.reads n)).get? jwt = some record →
      record.subject ∈ subjects) {fuel n : Nat} {cursor : Option String}
    {seenCursors entityIds : List String} {readAt : Utf16 → Nat}
    (h : ReadUpTo (run.visible trustMarkType sub) (entityIds.map Utf16.mk) (cursorPlace cursor) n
      readAt)
    (hseen : ∀ seen ∈ seenCursors, ∃ current, cursor = some current ∧
      Utf16.mk seen ≤ Utf16.mk current)
    (hpages : 500 * n ≤ entityIds.length)
    (hfuel : subjects.length < entityIds.length + 500 * fuel) :
    ∃ entityIds' pages readAt',
      listMarkPages run trustMarkType sub fuel n cursor seenCursors entityIds =
        some (.ok entityIds') ∧
      ReadUpTo (run.visible trustMarkType sub) (entityIds'.map Utf16.mk) .finish pages readAt' ∧
      500 * pages ≤ entityIds'.length + 500 := by
  induction fuel generalizing n cursor seenCursors entityIds readAt with
  | zero =>
    have hle := length_le_subjects hsubjects h
    omega
  | succ fuel ih =>
    obtain ⟨page, hpage, hsegment, hfull⟩ := listValid_segment (hkept n)
      (by decide +kernel : markPageLimit 500 = some 500) trustMarkType sub cursor
    have hread := h.segment hsegment
    have hlisted : entityIds.map Utf16.mk ++ page.items.map (fun record => Utf16.mk record.subject) =
        (entityIds ++ page.items.map (·.subject)).map Utf16.mk := by
      rw [List.map_append, List.map_map]
      rfl
    rw [hlisted] at hread
    unfold listMarkPages
    rw [hpage]
    dsimp only
    cases hnext : page.nextCursor with
    | none =>
      rw [hnext] at hread
      refine ⟨_, _, _, rfl, hread, ?_⟩
      rw [List.length_append]
      omega
    | some next =>
      rw [hnext] at hread hsegment
      have hlength : page.items.length = 500 := hfull (by rw [hnext]; exact Option.some_ne_none next)
      have hitems : page.items.map (fun record => Utf16.mk record.subject) ≠ [] := by
        intro hnil
        rw [List.map_eq_nil_iff.mp hnil] at hlength
        cases hlength
      obtain ⟨hne, hlt⟩ := Segment.lt_next hsegment hitems
      -- the cursors before this one are smaller
      have hnew : seenCursors.contains next = false := by
        rw [List.contains_eq_any_beq, List.any_eq_false]
        intro seen hmem heq
        obtain ⟨current, hcurrent, hle⟩ := hseen seen hmem
        rw [beq_iff_eq] at heq
        subst heq
        exact absurd (hlt current hcurrent) (not_lt.mpr hle)
      have hkeep : (some next).filter (· != "") = some next := by simp [Option.filter, hne]
      rw [hkeep]
      dsimp only
      rw [hnew, if_neg Bool.false_ne_true]
      refine ih hread ?_ ?_ ?_
      · intro seen hmem
        refine ⟨next, rfl, ?_⟩
        rcases List.mem_cons.mp hmem with rfl | hmem
        · exact le_rfl
        · obtain ⟨current, hcurrent, hle⟩ := hseen seen hmem
          exact hle.trans (hlt current hcurrent).le
      · rw [List.length_append, List.length_map, hlength]
        omega
      · rw [List.length_append, List.length_map, hlength]
        omega

end Loop

/-! ## The subjects of issued marks -/

section Subjects

variable {P : Platform} {ttl : Rat}

/-- A subject that the endpoints accept. -/
def ValidSubject (P : Platform) (subject : String) : Prop :=
  subject ≠ "" ∧ isValidEntityId P subject = true

/-- A request that waits for a signature or for its transaction is for such a subject. -/
def ForEntity (P : Platform) : Issuance → Prop
  | .signing _ subject _ => ValidSubject P subject
  | .committing _ subject _ _ _ => ValidSubject P subject
  | _ => True

theorem checkIssuanceRequest_subject {ctx : IssuanceContext} {request : IssuanceRequest}
    {state : MemoryState} {trustMarkType subject : String}
    (h : checkIssuanceRequest P ctx request state = .ok (trustMarkType, subject)) :
    ValidSubject P subject := by
  unfold checkIssuanceRequest at h
  split at h
  · cases h
  · split at h
    · cases h
    · split at h
      · cases h
      · cases h
      · dsimp only at h
        split at h
        · cases h
        · rename_i hsub
          rw [Bool.or_eq_true, not_or, Bool.not_eq_true', Bool.not_eq_false, decide_eq_true_eq] at hsub
          repeat' split at h
          all_goals cases h
          all_goals exact hsub

theorem receive_forEntity (ctx : IssuanceContext) (request : IssuanceRequest) (state : MemoryState)
    (now : Rat) : ForEntity P (receive P ctx request state now) := by
  unfold receive
  cases hcheck : checkIssuanceRequest P ctx request state with
  | error response => cases response <;> trivial
  | ok asked =>
    obtain ⟨trustMarkType, subject⟩ := asked
    dsimp only
    cases state.getValid trustMarkType subject now with
    | error e => trivial
    | ok existing =>
      cases existing with
      | some existing => trivial
      | none => exact checkIssuanceRequest_subject hcheck

theorem forEntity_of_reach {S : IssuanceState} (h : (trustMarkIssuance P ttl).Reach S) :
    ∀ request ∈ S.requests, ForEntity P request := by
  refine h.invariant (I := fun S : IssuanceState => ∀ request ∈ S.requests, ForEntity P request) ?_ ?_
  · rintro S ⟨now, rfl⟩ request hmem
    cases hmem
  · intro S S' hS hstep
    cases hstep with
    | tick hnow => exact hS
    | request request httl =>
      intro other hmem
      rcases List.mem_append.mp hmem with hmem | hmem
      · exact hS other hmem
      · rw [List.mem_singleton.mp hmem]
        exact receive_forEntity _ _ _ _
    | sign jwt hsigning =>
      intro other hmem
      rcases mem_requests_set hmem with rfl | hmem
      · have hsubject := hS _ (List.mem_of_getElem? hsigning)
        exact hsubject
      · exact hS other hmem
    | signFails hsigning =>
      intro other hmem
      rcases mem_requests_set hmem with rfl | hmem
      · trivial
      · exact hS other hmem
    | revoke trustMarkType subject revokedAt => exact hS
    | adapter i ha => exact hS

/-- The subjects of the stored marks are those of the issuances. -/
theorem subjects_afterCalls {Q : String → Prop} {calls : List MarkCall}
    (hcalls : ∀ trustMarkType subject jwt now, .issuance trustMarkType subject jwt now ∈ calls →
      Q subject) {jwt : String} {record : TrustMarkRecord}
    (h : (marksOf (afterCalls ttl calls)).get? jwt = some record) : Q record.subject := by
  induction calls using List.reverseRecOn generalizing jwt record with
  | nil => simp [afterCalls, noMarks, stateAfter, marksOf] at h
  | append_singleton calls call ih =>
    have hbefore : ∀ {jwt record}, (marksOf (afterCalls ttl calls)).get? jwt = some record →
        Q record.subject :=
      ih fun _ _ _ _ hmem => hcalls _ _ _ _ (List.mem_append_left _ hmem)
    rw [afterCalls_concat] at h
    cases call with
    | issuance trustMarkType subject issued now =>
      obtain ⟨_, state', hrun, hcases⟩ := issuance_cases (marksKept_afterCalls calls) ttl trustMarkType
        subject issued now
      rw [hrun] at h
      rcases hcases with ⟨rfl, -⟩ | ⟨rfl, -, ⟨-, rfl⟩ | ⟨-, rfl⟩⟩
      · exact hbefore h
      · exact hbefore h
      · rw [marksOf_set, Dict.get?_set] at h
        split at h
        · obtain rfl := Option.some.inj h
          exact hcalls trustMarkType subject issued now (by simp)
        · exact hbefore h
    | revocation trustMarkType subject revokedAt =>
      obtain ⟨hmarks, -⟩ := revocation_cases (marksKept_afterCalls calls) ttl trustMarkType subject
        revokedAt
      rw [hmarks, Dict.get?_mapValues] at h
      obtain ⟨before, hget, rfl⟩ := Option.map_eq_some_iff.mp h
      have hsubject : (revokeRecord trustMarkType subject revokedAt before).subject = before.subject := by
        unfold revokeRecord
        split <;> rfl
      rw [hsubject]
      exact hbefore hget

/-- In every run, the marks are for Entity Identifiers. -/
theorem validSubjects_of_reach {S : IssuanceState} (h : (trustMarkIssuance P ttl).Reach S)
    {jwt : String} {record : TrustMarkRecord}
    (hget : (marksOf S.adapter.shared).get? jwt = some record) : ValidSubject P record.subject := by
  obtain ⟨calls, hlinked⟩ := linked_of_reach h
  obtain ⟨k, -, hshared, -⟩ := (memoryStorage_serializable hlinked.reach).1.committed
  rw [hshared, show stateAfter noMarks (S.adapter.operations.take k) = afterCalls ttl (calls.take k)
    from hlinked.stateAt_eq k] at hget
  refine subjects_afterCalls (Q := ValidSubject P) ?_ hget
  intro trustMarkType subject jwt now hmem
  obtain ⟨i, hi⟩ := List.mem_iff_getElem?.mp (List.mem_of_mem_take hmem)
  exact forEntity_of_reach h _ (hlinked.issued _ _ _ _ _ hi)

end Subjects

/-! ## From the storage to a client -/

/-- A list of subjects in their order. It is read in pages, and a subject is on it if the Trust Mark
endpoint would have handed out a mark for it when its page was read. -/
structure MarkList (P : Platform) (run : TrustMarkListRun) (trustMarkType : String)
    (sub : Option String) (entityIds : List String) : Prop where
  sorted : entityIds.Pairwise fun a b => Utf16.mk a < Utf16.mk b
  read : ∃ pages readAt, 500 * pages ≤ entityIds.length + 500 ∧ (∀ s : Utf16, readAt s < pages) ∧
    Monotone readAt ∧ ∀ s, s ∈ entityIds ↔ sub.all (s == ·) = true ∧
      (createTrustMarkHandler P (run.reads (readAt ⟨s⟩)) run.validAt
        { pathname := "/", searchParams := [("trust_mark_type", trustMarkType), ("sub", s)] }).status =
          200

section Received

variable {H : ClientHost} {run : TrustMarkListRun} {trustMarkType : String} {sub : Option String}

/-- The Trust Mark endpoint hands out a mark if there is a valid one. -/
theorem createTrustMarkHandler_status {P : Platform} {state : MemoryState} (hk : MarksKept state)
    (hvalid : ∀ jwt record, (marksOf state).get? jwt = some record → ValidSubject P record.subject)
    (htype : trustMarkType ≠ "") (now : Rat) (s : String) :
    (createTrustMarkHandler P state now
      { pathname := "/", searchParams := [("trust_mark_type", trustMarkType), ("sub", s)] }).status =
        200 ↔ (newestMark state now trustMarkType s).isSome := by
  have hmethod : requireMethod { pathname := "/", searchParams :=
      [("trust_mark_type", trustMarkType), ("sub", s)] } "GET" = none := requireMethod_of_method rfl
  have hconfigured : state.trustMarks.isNone = false := by
    rw [hk.enabled]
    rfl
  have hget : state.getValid trustMarkType s now = .ok (newestMark state now trustMarkType s) :=
    getValid_eq hk trustMarkType s now
  have htypes : (queryParam { pathname := "/", searchParams :=
      [("trust_mark_type", trustMarkType), ("sub", s)] } "trust_mark_type").getD "" = trustMarkType := rfl
  have hsubs : (queryParam { pathname := "/", searchParams :=
      [("trust_mark_type", trustMarkType), ("sub", s)] } "sub").getD "" = s := rfl
  unfold createTrustMarkHandler
  rw [hmethod]
  dsimp only
  rw [hconfigured, if_neg Bool.false_ne_true, htypes, hsubs, if_neg htype, hget]
  by_cases hsome : (newestMark state now trustMarkType s).isSome
  · obtain ⟨record, hmem, -, rfl, -⟩ := isSome_newestMark.mp hsome
    obtain ⟨jwt, hjwt⟩ := mem_marks.mp hmem
    obtain ⟨hne, hid⟩ := hvalid jwt record hjwt
    obtain ⟨newest, hnewest⟩ := Option.isSome_iff_exists.mp hsome
    rw [if_neg (by simp [hid, hne]), hnewest]
    exact iff_of_true rfl rfl
  · rw [Option.not_isSome_iff_eq_none] at hsome
    rw [hsome]
    split <;> exact iff_of_false (by decide) Bool.false_ne_true

/-- The parameters of a request for a list. -/
def trustMarkListParams (params : List (String × String)) (trustMarkType : String)
    (sub : Option String) : List (String × String) :=
  let params := setParam params "trust_mark_type" trustMarkType
  match sub with
  | none => params
  | some sub => setParam params "sub" sub

/-- What a client reads in a list of Entity Identifiers. -/
theorem parseTrustMarkList_ids {text endpoint : String} {entityIds : List String}
    (htext : H.parseJson text = some (.arr (entityIds.map .str)))
    (hids : ∀ s ∈ entityIds, isValidEntityId H.toPlatform s = true) :
    parseTrustMarkList H endpoint text = .ok entityIds := by
  have hstrings : ∀ ids : List String, (ids.map Json.str).mapM Json.string? = some ids := by
    intro ids
    induction ids with
    | nil => rfl
    | cons s rest ih =>
      rw [List.map_cons, List.mapM_cons, ih]
      rfl
  have hfind : entityIds.find? (fun value => !isValidEntityId H.toPlatform value) = none := by
    rw [List.find?_eq_none]
    intro s hs
    simp [hids s hs]
  unfold parseTrustMarkList
  rw [htext]
  dsimp only [Json.items?]
  rw [Option.bind_some, hstrings]
  dsimp only
  rw [hfind]

theorem valuesOf_trustMarkListParams {params : List (String × String)}
    (hown : valuesOf params "sub" = []) :
    valuesOf (trustMarkListParams params trustMarkType sub) "trust_mark_type" = [trustMarkType] ∧
      valuesOf (trustMarkListParams params trustMarkType sub) "sub" = sub.toList := by
  have hset : valuesOf (setParam params "trust_mark_type" trustMarkType) "sub" = [] := by
    rw [valuesOf_setParam_ne _ _ (by decide), hown]
  cases sub with
  | none => exact ⟨valuesOf_setParam_self _ _ _, hset⟩
  | some sub =>
    refine ⟨?_, valuesOf_setParam_self _ _ _⟩
    rw [trustMarkListParams, valuesOf_setParam_ne _ _ (by decide), valuesOf_setParam_self]

/-- The endpoint reads all pages. -/
theorem createTrustMarkListHandler_read {P : Platform} {request : Request} {subjects : List String}
    {fuel : Nat} (hconfigured : run.configured = true) (hkept : ∀ n, MarksKept (run.reads n))
    (hsubjects : ∀ n jwt record, (marksOf (run.reads n)).get? jwt = some record →
      record.subject ∈ subjects)
    (hfuel : subjects.length < 500 * fuel) (hmethod : request.method = "GET")
    (htype : trustMarkType ≠ "")
    (hsub : ∀ s, sub = some s → ValidSubject P s)
    (htypes : valuesOf request.searchParams "trust_mark_type" = [trustMarkType])
    (hsubs : valuesOf request.searchParams "sub" = sub.toList) :
    ∃ (entityIds : List String) (pages : Nat) (readAt : Utf16 → Nat),
      createTrustMarkListHandler P fuel run request =
        some (jsonResponse (.arr (entityIds.map .str))) ∧
      ReadUpTo (run.visible trustMarkType sub) (entityIds.map Utf16.mk) .finish pages readAt ∧
      500 * pages ≤ entityIds.length + 500 := by
  have hstart : ReadUpTo (run.visible trustMarkType sub) (([] : List String).map Utf16.mk)
      (cursorPlace none) 0 fun _ => 0 := .start _
  have hnone : ∀ seen ∈ ([] : List String), ∃ current, (none : Option String) = some current ∧
      Utf16.mk seen ≤ Utf16.mk current := fun _ h => absurd h List.not_mem_nil
  obtain ⟨entityIds, pages, readAt, hpages, hread, hcount⟩ := listMarkPages_read hkept hsubjects
    hstart hnone le_rfl (by simpa using hfuel)
  refine ⟨entityIds, pages, readAt, ?_, hread, hcount⟩
  have hsubQuery : (queryParam request "sub").filter (· != "") = sub := by
    rw [queryParam, hsubs]
    cases sub with
    | none => rfl
    | some s => simp [Option.filter, (hsub s rfl).1]
  have htypeQuery : (queryParam request "trust_mark_type").getD "" = trustMarkType := by
    rw [queryParam, htypes]
    rfl
  have hvalid : (sub.any fun s => !isValidEntityId P s) = false := by
    cases sub with
    | none => rfl
    | some s => simp [(hsub s rfl).2]
  unfold createTrustMarkListHandler
  rw [requireMethod_of_method hmethod]
  dsimp only
  rw [hconfigured, hsubQuery, htypeQuery, hvalid]
  simp only [Bool.not_true, Bool.false_eq_true, if_false, htype]
  rw [hpages]

/-- In every run of issuances and revocations, whatever happens between the pages, the endpoint
answers a client with the list of the entities with a mark. -/
theorem trustMarkList_received {ttl : Rat} {subjects : List String} {fuel : Nat} {endpoint : String}
    {u : Url} {request : Request} {options : FetchOptions} {fetch : FetchRun}
    (hreads : ∀ n, ∃ S, (trustMarkIssuance H.toPlatform ttl).Reach S ∧ run.reads n = S.adapter.shared)
    (hsubjects : ∀ n jwt record, (marksOf (run.reads n)).get? jwt = some record →
      record.subject ∈ subjects)
    (hfuel : subjects.length < 500 * fuel) (hconfigured : run.configured = true)
    (htype : trustMarkType ≠ "")
    (hsub : ∀ s, sub = some s → ValidSubject H.toPlatform s)
    (hendpoint : checkEndpointUrl H "Invalid URL" "URL" endpoint = .ok u)
    (hown : valuesOf (H.urlParams u) "sub" = [])
    (hurl : ∃ u', H.parseUrl (trustMarkListUrl H u trustMarkType sub).href = some u' ∧
      H.urlParams u' = trustMarkListParams (H.urlParams u) trustMarkType sub)
    (harrives : Arrives H ((options.expecting MediaType.json).request
      (trustMarkListUrl H u trustMarkType sub).href) request) :
    ∃ entityIds, MarkList H.toPlatform run trustMarkType sub entityIds ∧
      createTrustMarkListHandler H.toPlatform fuel run request =
        some (jsonResponse (.arr (entityIds.map .str))) ∧
      (Answered H (trustMarkListUrl H u trustMarkType sub).href (options.expecting MediaType.json)
          fetch (jsonResponse (.arr (entityIds.map .str))) →
        (fetchTrustMarkList H endpoint trustMarkType sub options fetch).2 = .ok entityIds) := by
  obtain ⟨u', hparse, hparams⟩ := hurl
  obtain ⟨htypes, hsubs⟩ := @valuesOf_trustMarkListParams trustMarkType sub _ hown
  rw [← hparams, ← harrives.params u' hparse] at htypes hsubs
  have hkept : ∀ n, MarksKept (run.reads n) := by
    intro n
    obtain ⟨S, hS, hshared⟩ := hreads n
    obtain ⟨calls, hlinked⟩ := linked_of_reach hS
    rw [hshared]
    exact hlinked.kept
  have hvalid : ∀ n jwt record, (marksOf (run.reads n)).get? jwt = some record →
      ValidSubject H.toPlatform record.subject := by
    intro n jwt record hget
    obtain ⟨S, hS, hshared⟩ := hreads n
    rw [hshared] at hget
    exact validSubjects_of_reach hS hget
  obtain ⟨entityIds, pages, readAt, hserved, hread, hcount⟩ := createTrustMarkListHandler_read
    hconfigured hkept hsubjects hfuel harrives.method htype hsub htypes hsubs
  -- each subject is listed as of the read of its own page
  have hmem : ∀ s, s ∈ entityIds ↔ sub.all (s == ·) = true ∧
      (newestMark (run.reads (readAt ⟨s⟩)) run.validAt trustMarkType s).isSome := by
    intro s
    have hiff := hread.mem_iff ⟨s⟩
    have hinjective : Function.Injective Utf16.mk := fun a b h => congrArg Utf16.text h
    rw [List.mem_map_of_injective hinjective] at hiff
    exact hiff.trans ⟨fun h => h.2, fun h => ⟨trivial, h⟩⟩
  refine ⟨entityIds, ⟨List.pairwise_map.mp hread.sorted, pages, readAt, hcount,
    fun s => hread.before s trivial, fun a b hle => hread.mono a b trivial hle, fun s => ?_⟩, hserved,
    fun hanswered => ?_⟩
  · rw [hmem, createTrustMarkHandler_status (hkept _) (hvalid _) htype]
  · -- the client accepts the list, since the subjects were checked when they were issued marks
    have hids : ∀ s ∈ entityIds, isValidEntityId H.toPlatform s = true := by
      intro s hs
      obtain ⟨-, hsome⟩ := (hmem s).mp hs
      obtain ⟨record, hrecord, -, rfl, -⟩ := isSome_newestMark.mp hsome
      obtain ⟨jwt, hjwt⟩ := mem_marks.mp hrecord
      exact (hvalid _ jwt record hjwt).2
    have htype : ∀ expected, (options.expecting MediaType.json).expectedType = some expected →
        (options.expecting MediaType.json).matchesContentType H
          ((jsonResponse (.arr (entityIds.map .str))).headers.get "content-type") expected = true := by
      intro expected he
      obtain rfl : MediaType.json = expected := Option.some.inj he
      have hmedia : IsMediaType MediaType.json := by decide +kernel
      exact hmedia.matches H _
    obtain ⟨text, hsent, hfetch⟩ := performFetch_ok hanswered ⟨le_rfl, (by decide : 200 < 300)⟩
      (fun _ h => by cases h) htype
    unfold fetchTrustMarkList
    rw [if_neg ‹trustMarkType ≠ ""›, hendpoint]
    dsimp only
    rw [Fetched.check, hfetch]
    exact parseTrustMarkList_ids hsent hids

end Received

/-! ## An example -/

/-- The entities with a mark that is valid when the list is read. -/
def listedEntities : List String := ["https://client.example", "https://rp.example"]

def listedText : String := "[\x22https://client.example\x22,\x22https://rp.example\x22]"

def listHost : ClientHost :=
  tableClientHost [] [(listedText, .arr (listedEntities.map .str))]
    [("https://ta.example/list?type", [("trust_mark_type", "https://ta.example/mark")])]

/-- A mark is issued to one entity after the other, and the last one is revoked. -/
def listedMoves : List IssuanceMove :=
  issuedOnce ++
    [.request { markRequest with sub := some "https://client.example" }, .sign 1 "client mark"] ++
    List.replicate 6 (.adapter 1) ++
    [.request { markRequest with sub := some "https://old.example" }, .sign 2 "old mark"] ++
    List.replicate 6 (.adapter 2) ++
    [.revoke "https://ta.example/mark" "https://old.example" 1000, .adapter 3, .adapter 3]

/-- Another one is revoked when the first page has been read. -/
def laterMoves : List IssuanceMove :=
  listedMoves ++
    [.revoke "https://ta.example/mark" "https://rp.example" 1001, .adapter 4, .adapter 4]

def movesBefore (n : Nat) : List IssuanceMove := if n = 0 then listedMoves else laterMoves

def listRun : TrustMarkListRun where
  validAt := 1001
  reads n := (issuanceRun listHost.toPlatform markIssuer 1000 (movesBefore n)).adapter.shared

def listUrl : Url where
  protocol := "https:"
  hostname := "ta.example"
  href := "https://ta.example/list"

def listRequest : Request where
  pathname := "/list"
  searchParams := [("trust_mark_type", "https://ta.example/mark")]

def listFetch : FetchRun where
  respond _ := .ok
    { status := 200
      headers := [("content-type", MediaType.json)]
      body := some (inTwoChunks listedText) }

theorem issuedMark_listed :
    MarkList listHost.toPlatform listRun "https://ta.example/mark" none listedEntities ∧
    (fetchTrustMarkList listHost "https://ta.example/list" "https://ta.example/mark" none {}
      listFetch).2 = .ok listedEntities := by
  have hreads : ∀ n, ∃ S, (trustMarkIssuance listHost.toPlatform markIssuer.ttl).Reach S ∧
      listRun.reads n = S.adapter.shared :=
    fun n => ⟨_, reach_issuanceRun listHost.toPlatform markIssuer 1000 (movesBefore n), rfl⟩
  have hsame : ∀ moves ∈ [listedMoves, laterMoves],
      (marksOf (issuanceRun listHost.toPlatform markIssuer 1000 moves).adapter.shared).members.map
        (fun p => p.2.subject) =
          ["https://rp.example", "https://client.example", "https://old.example"] := by
    decide +kernel
  have hmarks : ∀ n, (marksOf (listRun.reads n)).members.map (fun p => p.2.subject) =
      ["https://rp.example", "https://client.example", "https://old.example"] := by
    intro n
    refine hsame (movesBefore n) ?_
    rw [movesBefore]
    split <;> simp
  have hsubjects : ∀ n jwt record, (marksOf (listRun.reads n)).get? jwt = some record →
      record.subject ∈ ["https://rp.example", "https://client.example", "https://old.example"] := by
    intro n jwt record hget
    rw [← hmarks n]
    exact List.mem_map_of_mem (f := fun p => p.2.subject) ((Dict.get?_eq_some_iff _ _ _).mp hget)
  have hendpoint : checkEndpointUrl listHost "Invalid URL" "URL" "https://ta.example/list" =
      .ok listUrl := by
    decide +kernel
  have htarget : (trustMarkListUrl listHost listUrl "https://ta.example/mark" none).href =
      "https://ta.example/list?type" := by
    decide +kernel
  have hparse : listHost.parseUrl (trustMarkListUrl listHost listUrl "https://ta.example/mark" none).href =
      some { listUrl with href := "https://ta.example/list?type" } := by
    decide +kernel
  have hurl : ∃ u', listHost.parseUrl
        (trustMarkListUrl listHost listUrl "https://ta.example/mark" none).href = some u' ∧
      listHost.urlParams u' =
        trustMarkListParams (listHost.urlParams listUrl) "https://ta.example/mark" none :=
    ⟨_, hparse, by decide +kernel⟩
  have harrives : Arrives listHost ((({} : FetchOptions).expecting MediaType.json).request
      (trustMarkListUrl listHost listUrl "https://ta.example/mark" none).href) listRequest := by
    refine ⟨rfl, fun u hu => ?_⟩
    obtain rfl := Option.some.inj (hparse.symm.trans hu)
    decide +kernel
  have hfuel : ["https://rp.example", "https://client.example", "https://old.example"].length <
      500 * 1 := by decide
  obtain ⟨entityIds, hlist, hserved, hfetched⟩ := trustMarkList_received hreads hsubjects hfuel rfl
    (by decide) (fun _ h => by cases h) hendpoint (by decide +kernel) hurl harrives
  have hids : createTrustMarkListHandler listHost.toPlatform 1 listRun listRequest =
      some (jsonResponse (.arr [.str "https://client.example", .str "https://rp.example"])) := by
    decide +kernel
  have hsame : Json.arr (entityIds.map .str) =
      .arr [.str "https://client.example", .str "https://rp.example"] := by
    rw [hids] at hserved
    have hbody := congrArg Response.body (Option.some.inj hserved)
    exact (ResponseBody.json.inj hbody).symm
  obtain rfl : entityIds = listedEntities := by
    have hinjective : Function.Injective Json.str := fun a b h => Json.str.inj h
    exact List.map_injective_iff.mpr hinjective (Json.arr.inj hsame)
  refine ⟨hlist, hfetched ⟨⟨{ listUrl with href := "https://ta.example/list?type" },
    by decide +kernel⟩, rfl, _, rfl, rfl, by decide +kernel, inTwoChunks listedText, rfl, rfl, ?_,
    by decide +kernel, fun length h => (by cases h)⟩⟩
  exact (by decide +kernel : listHost.parseJson (listHost.decodeUtf8
    (inTwoChunks listedText).chunks.flatten) = some (.arr (listedEntities.map .str)))

end OidFed
