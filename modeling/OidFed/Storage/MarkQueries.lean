import OidFed.Lib.Greatest
import OidFed.Storage.Listing
import OidFed.Storage.TrustMarkIssuance
import Mathlib.Data.Prod.Lex

/-!
# The queries for Trust Marks (`authority/src/storage/memory.ts`)

`MemoryTrustMarkStorage` answers which marks are valid in several ways: it sorts the records and
takes the first, keeps a running maximum for each subject or type, or asks whether there is a
record. Here they are compared in one state.

* `TrustMarkRecord.rank`: what all of them compare by: the time of issue, then the JWT. Records of
  one state have different ranks, because each is stored under its JWT.
* `get?_latestBy`: a running maximum for every key is, at each key, the one of its own records.
* `Follows`: reading `listValid` page after page along `nextCursor`.
* `QueriesAgree`: what all queries say of the newest mark of a type for a subject.
* `trustMark_queries_agree`: they agree in every state that an adapter reaches.
-/

namespace OidFed

open Js Greatest Exclusive

/-! ## The queries -/

def isNewerTrustMark (candidate current : TrustMarkRecord) : Bool :=
  decide (current.issuedAt < candidate.issuedAt) ||
    (candidate.issuedAt == current.issuedAt && textLt current.jwt candidate.jwt)

/-- The newest record for every key: `latestBySubject`, and the loop of `listValidForSubject`. -/
def latestBy (key : TrustMarkRecord → String) (records : List TrustMarkRecord) :
    Dict String TrustMarkRecord :=
  records.foldl (fun latest record =>
    match latest.get? (key record) with
    | none => latest.set (key record) record
    | some existing =>
      if isNewerTrustMark record existing then latest.set (key record) record else latest) .empty

/-- The newest records, in the order of their keys. -/
def sortedLatest (key : TrustMarkRecord → String) (records : List TrustMarkRecord) :
    List TrustMarkRecord :=
  ((latestBy key records).members.map Prod.snd).insertionSort fun a b =>
    Utf16.mk (key a) ≤ Utf16.mk (key b)

structure TrustMarkListOptions where
  limit : Rat
  cursor : Option String := none
  subject : Option String := none

structure TrustMarkListPage where
  items : List TrustMarkRecord
  nextCursor : Option String := none
  deriving DecidableEq

inductive ListValidError where
  | rangeError (message : String)
  | storage (e : StorageError)
  deriving DecidableEq

/-- A limit that is a positive safe integer. -/
def markPageLimit (limit : Rat) : Option ℕ+ :=
  if h : limit.den = 1 ∧ 0 < limit.num ∧ limit.num ≤ 9007199254740991 then
    some ⟨limit.num.toNat, by omega⟩
  else none

namespace MemoryState

variable (state : MemoryState)

def markRecords : Except StorageError (List TrustMarkRecord) :=
  match state.trustMarks with
  | none => .error (.error "Trust mark storage is not enabled")
  | some records => .ok (records.members.map Prod.snd)

/-- The newest valid marks of a type, one for each subject. -/
def listedMarks (trustMarkType : String) (validAt : Rat) (subject : Option String)
    (records : List TrustMarkRecord) : List TrustMarkRecord :=
  sortedLatest (·.subject) (records.filter fun record =>
    record.trustMarkType == trustMarkType && subject.all (record.subject == ·) &&
      isValidTrustMark record validAt)

def listValid (trustMarkType : String) (validAt : Rat) (options : TrustMarkListOptions) :
    Except ListValidError TrustMarkListPage :=
  match markPageLimit options.limit with
  | none => .error (.rangeError "limit must be a positive safe integer")
  | some limit =>
    match state.markRecords with
    | .error e => .error (.storage e)
    | .ok records =>
      let records := listedMarks trustMarkType validAt options.subject records
      let records := match options.cursor with
        | none => records
        | some cursor => records.filter fun record => textLe cursor record.subject
      if (limit : Nat) < records.length then
        .ok { items := records.take limit, nextCursor := records[(limit : Nat)]?.map (·.subject) }
      else .ok { items := records }

def listValidForSubject (subject : String) (validAt : Rat) :
    Except StorageError (List TrustMarkRecord) :=
  match state.markRecords with
  | .error e => .error e
  | .ok records => .ok (sortedLatest (·.trustMarkType) (records.filter fun record =>
      record.subject == subject && isValidTrustMark record validAt))

def hasAnyValid (subject : String) (validAt : Rat) : Except StorageError Bool :=
  match state.markRecords with
  | .error e => .error e
  | .ok records => .ok (records.any fun record =>
      record.subject == subject && isValidTrustMark record validAt)

end MemoryState

/-! ## The newest of each key -/

/-- What the queries compare records by. -/
def TrustMarkRecord.rank (record : TrustMarkRecord) : Rat ×ₗ Utf16 :=
  toLex (record.issuedAt, ⟨record.jwt⟩)

theorem isNewerTrustMark_iff (a b : TrustMarkRecord) :
    isNewerTrustMark a b = true ↔ b.rank < a.rank := by
  simp only [isNewerTrustMark, TrustMarkRecord.rank, Prod.Lex.toLex_lt_toLex, Bool.or_eq_true,
    decide_eq_true_eq, Bool.and_eq_true, beq_iff_eq, textLt]
  exact or_congr_right (and_congr_left fun _ => eq_comm)

theorem preferredTrustMark_iff (a b : TrustMarkRecord) :
    preferredTrustMark a b = true ↔ b.rank ≤ a.rank := by
  simp only [preferredTrustMark, TrustMarkRecord.rank, Prod.Lex.toLex_le_toLex]
  by_cases heq : a.issuedAt = b.issuedAt
  · simp [heq, textLe_iff]
  · have hne : ¬ b.issuedAt = a.issuedAt := fun h => heq h.symm
    simp only [heq, if_false, decide_eq_true_eq, hne, false_and, or_false]
    exact ⟨fun h => lt_of_le_of_ne h hne, le_of_lt⟩

section Latest

variable {key : TrustMarkRecord → String} {records : List TrustMarkRecord}

/-- The running maximum at a key is that of the key's own records. -/
theorem get?_latestBy (key : TrustMarkRecord → String) (records : List TrustMarkRecord)
    (k : String) : (latestBy key records).get? k =
      (records.filter fun record => key record == k).foldl (better isNewerTrustMark) none := by
  suffices ∀ d : Dict String TrustMarkRecord, (records.foldl (fun latest record =>
      match latest.get? (key record) with
      | none => latest.set (key record) record
      | some existing =>
        if isNewerTrustMark record existing then latest.set (key record) record else latest)
      d).get? k = (records.filter fun record => key record == k).foldl (better isNewerTrustMark)
        (d.get? k) from this .empty
  induction records with
  | nil => exact fun d => rfl
  | cons record rest ih =>
    intro d
    rw [List.foldl_cons, ih]
    by_cases hk : key record = k
    · rw [List.filter_cons_of_pos (by simpa using hk), List.foldl_cons, hk]
      congr 1
      cases hget : d.get? k with
      | none => simp only [better, Dict.get?_set_self]
      | some existing =>
        simp only [better]
        split
        · rw [Dict.get?_set_self]
        · exact hget
    · rw [List.filter_cons_of_neg (by simpa using hk)]
      congr 1
      have hne : k ≠ key record := fun h => hk h.symm
      split
      · exact Dict.get?_set_ne _ _ hne
      · split
        · exact Dict.get?_set_ne _ _ hne
        · rfl

theorem selects_latestBy (k : String) : Selects TrustMarkRecord.rank
    (records.filter fun record => key record == k) ((latestBy key records).get? k) := by
  rw [get?_latestBy]
  exact selects_foldl isNewerTrustMark_iff

/-- Records stand under their own keys. -/
theorem key_of_get?_latestBy {k : String} {record : TrustMarkRecord}
    (h : (latestBy key records).get? k = some record) : key record = k := by
  have hselects : Selects TrustMarkRecord.rank (records.filter fun record => key record == k)
      ((latestBy key records).get? k) := selects_latestBy k
  rw [h] at hselects
  simpa using (List.mem_filter.mp hselects.1).2

theorem mem_sortedLatest {record : TrustMarkRecord} :
    record ∈ sortedLatest key records ↔ (latestBy key records).get? (key record) = some record := by
  simp only [sortedLatest, List.mem_insertionSort, List.mem_map, Prod.exists, exists_eq_right]
  constructor
  · rintro ⟨k, hmem⟩
    have hget := (Dict.get?_eq_some_iff _ _ _).mpr hmem
    rw [key_of_get?_latestBy hget]
    exact hget
  · exact fun hget => ⟨key record, (Dict.get?_eq_some_iff _ _ _).mp hget⟩

theorem sorted_sortedLatest (key : TrustMarkRecord → String) (records : List TrustMarkRecord) :
    (sortedLatest key records).Pairwise fun a b => Utf16.mk (key a) < Utf16.mk (key b) := by
  have hle := List.pairwise_insertionSort
    (fun a b : TrustMarkRecord => Utf16.mk (key a) ≤ Utf16.mk (key b))
    ((latestBy key records).members.map Prod.snd)
  have hkeys : ((latestBy key records).members.map Prod.snd).map key =
      (latestBy key records).keys := by
    rw [Dict.keys, List.map_map]
    exact List.map_congr_left fun e he => key_of_get?_latestBy (Dict.get?_of_mem he)
  have hnodup : ((sortedLatest key records).map key).Nodup := by
    refine (List.Perm.nodup_iff ((List.perm_insertionSort _ _).map key)).mpr ?_
    rw [hkeys]
    exact (latestBy key records).nodup
  rw [List.nodup_iff_pairwise_ne, List.pairwise_map] at hnodup
  refine (hle.and hnodup).imp fun h => lt_of_le_of_ne h.1 fun heq => h.2 ?_
  exact congrArg Utf16.text heq

/-- The item of a key is the newest record of the key. -/
theorem find?_sortedLatest (k : String) :
    (sortedLatest key records).find? (fun record => key record == k) =
      (latestBy key records).get? k := by
  cases hget : (latestBy key records).get? k with
  | none =>
    rw [List.find?_eq_none]
    intro record hmem hk
    have hkey : key record = k := by simpa using hk
    rw [mem_sortedLatest, hkey, hget] at hmem
    cases hmem
  | some record =>
    have hkey := key_of_get?_latestBy hget
    have hmem : record ∈ sortedLatest key records := by
      rw [mem_sortedLatest, hkey]
      exact hget
    cases hfind : (sortedLatest key records).find? (fun record => key record == k) with
    | none => exact absurd (by simpa using hkey) (List.find?_eq_none.mp hfind record hmem)
    | some found =>
      -- only one item has the key
      have hfound := List.mem_of_find?_eq_some hfind
      have hkey' : key found = k := by simpa using List.find?_some hfind
      rw [mem_sortedLatest, hkey', hget] at hfound
      exact hfound.symm

end Latest

/-! ## Agreement -/

/-- The stored marks of a type for a subject that are valid at a time. -/
def validMarksOf (state : MemoryState) (trustMarkType subject : String) (validAt : Rat) :
    List TrustMarkRecord :=
  ((marksOf state).members.map Prod.snd).filter fun record =>
    record.trustMarkType == trustMarkType && record.subject == subject &&
      isValidTrustMark record validAt

/-- The items of the pages of `listValid` from a cursor on, following `nextCursor`. -/
inductive Follows (state : MemoryState) (trustMarkType : String) (validAt limit : Rat)
    (subject : Option String) : Option String → List TrustMarkRecord → Prop
  | last {cursor : Option String} {items : List TrustMarkRecord} :
      state.listValid trustMarkType validAt { limit, cursor, subject } = .ok { items } →
      Follows state trustMarkType validAt limit subject cursor items
  | next {cursor : Option String} {items rest : List TrustMarkRecord} {next : String} :
      state.listValid trustMarkType validAt { limit, cursor, subject } =
        .ok { items, nextCursor := some next } →
      Follows state trustMarkType validAt limit subject (some next) rest →
      Follows state trustMarkType validAt limit subject cursor (items ++ rest)

/-- The options of a listing that ask for marks, without them. -/
def ListFilter.withoutMarks (filter : ListFilter) : ListFilter :=
  { filter with trustMarked := none, trustMarkType := none }

/-- What the queries of a state say of the newest valid mark of each type for each subject. -/
structure QueriesAgree (state : MemoryState) (validAt : Rat)
    (newest : String → String → Option TrustMarkRecord) : Prop where
  greatest : ∀ trustMarkType subject, Selects TrustMarkRecord.rank
    (validMarksOf state trustMarkType subject validAt) (newest trustMarkType subject)
  getValid : ∀ trustMarkType subject,
    state.getValid trustMarkType subject validAt = .ok (newest trustMarkType subject)
  listValid : ∀ trustMarkType subject limit, (markPageLimit limit).isSome → ∃ items,
    (∀ items', Follows state trustMarkType validAt limit subject none items' ↔ items' = items) ∧
      (items.Pairwise fun a b => Utf16.mk a.subject < Utf16.mk b.subject) ∧
      ∀ s, items.find? (fun record => record.subject == s) =
        if subject.all (s == ·) then newest trustMarkType s else none
  listValidForSubject : ∀ subject, ∃ items,
    state.listValidForSubject subject validAt = .ok items ∧
      (items.Pairwise fun a b => Utf16.mk a.trustMarkType < Utf16.mk b.trustMarkType) ∧
      ∀ trustMarkType, items.find? (fun record => record.trustMarkType == trustMarkType) =
        newest trustMarkType subject
  hasAnyValid : ∀ subject, ∃ b, state.hasAnyValid subject validAt = .ok b ∧
    (b = true ↔ ∃ trustMarkType, (newest trustMarkType subject).isSome)
  list : ∀ (filter : ListFilter) (options : ListPageOptions), filter.validAt = some validAt →
    filter.trustMarked = some true ∨ filter.trustMarkType.isSome → options.limit = none →
    ∃ page all, state.list filter options = .ok page ∧
      state.list filter.withoutMarks options = .ok all ∧
      ∀ record, record ∈ page.items ↔ record ∈ all.items ∧ ∃ trustMarkType,
        filter.trustMarkType.all (fun types => types.contains trustMarkType) ∧
          (newest trustMarkType record.entityId).isSome

section Agreement

variable {state : MemoryState} {validAt : Rat}

theorem mem_validMarksOf {trustMarkType subject : String} {record : TrustMarkRecord} :
    record ∈ validMarksOf state trustMarkType subject validAt ↔
      record ∈ (marksOf state).members.map Prod.snd ∧ record.trustMarkType = trustMarkType ∧
        record.subject = subject ∧ isValidTrustMark record validAt = true := by
  rw [validMarksOf, List.mem_filter]
  simp only [Bool.and_eq_true, beq_iff_eq, and_assoc]

theorem markRecords_eq (hk : MarksKept state) :
    state.markRecords = .ok ((marksOf state).members.map Prod.snd) := by
  unfold MemoryState.markRecords
  rw [hk.enabled]

/-- Records of one state have different ranks: each is stored under its JWT. -/
theorem ranked_marks (hk : MarksKept state) :
    Ranked TrustMarkRecord.rank ((marksOf state).members.map Prod.snd) := by
  intro a ha b hb hrank
  obtain ⟨jwt, hjwt⟩ := mem_marks.mp ha
  obtain ⟨jwt', hjwt'⟩ := mem_marks.mp hb
  have hsame : a.jwt = b.jwt := congrArg (fun r : Rat ×ₗ Utf16 => (ofLex r).2.text) hrank
  rw [hk.keyed jwt a hjwt, hk.keyed jwt' b hjwt'] at hsame
  rw [hsame, hjwt'] at hjwt
  exact (Option.some.inj hjwt).symm

theorem ranked_validMarksOf (hk : MarksKept state) (trustMarkType subject : String) :
    Ranked TrustMarkRecord.rank (validMarksOf state trustMarkType subject validAt) :=
  (ranked_marks hk).subset (List.filter_subset_self _)

/-- The newest valid mark of a type for a subject. -/
def newestMark (state : MemoryState) (validAt : Rat) (trustMarkType subject : String) :
    Option TrustMarkRecord :=
  ((validMarksOf state trustMarkType subject validAt).mergeSort preferredTrustMark).head?

theorem selects_newestMark (trustMarkType subject : String) : Selects TrustMarkRecord.rank
    (validMarksOf state trustMarkType subject validAt)
    (newestMark state validAt trustMarkType subject) :=
  selects_head? preferredTrustMark_iff

/-- A running maximum over marks with the same members finds the newest mark. -/
theorem latestBy_eq_newest (hk : MarksKept state) {key : TrustMarkRecord → String}
    {records : List TrustMarkRecord} {k trustMarkType subject : String}
    (h : ∀ record, (record ∈ records ∧ key record = k) ↔
      record ∈ validMarksOf state trustMarkType subject validAt) :
    (latestBy key records).get? k = newestMark state validAt trustMarkType subject := by
  refine Selects.unique (ranked_validMarksOf hk trustMarkType subject) ?_
    (selects_newestMark trustMarkType subject)
  refine (selects_latestBy k).congr fun record => ?_
  rw [← h record, List.mem_filter, beq_iff_eq]

/-! ### The pages of `listValid` -/

/-- What is left of a sorted list from one of its items on. -/
theorem filter_eq_drop {l : List TrustMarkRecord} {key : TrustMarkRecord → String}
    (hsorted : l.Pairwise fun a b => Utf16.mk (key a) < Utf16.mk (key b)) {i : Nat}
    {record : TrustMarkRecord} (hi : l[i]? = some record) :
    l.filter (fun r => textLe (key record) (key r)) = l.drop i := by
  induction l generalizing i with
  | nil => simp at hi
  | cons first rest ih =>
    obtain ⟨hfirst, hrest⟩ := List.pairwise_cons.mp hsorted
    cases i with
    | zero =>
      obtain rfl : first = record := by simpa using hi
      rw [List.drop_zero, List.filter_eq_self]
      intro r hr
      rw [textLe_iff]
      rcases List.mem_cons.mp hr with rfl | hr
      · exact le_rfl
      · exact (hfirst r hr).le
    | succ i =>
      rw [List.getElem?_cons_succ] at hi
      have hlt := hfirst record (List.mem_of_getElem? hi)
      have hnot : ¬ textLe (key record) (key first) = true := by
        rw [textLe_iff]
        exact not_le.mpr hlt
      rw [List.filter_cons_of_neg (by exact hnot), List.drop_succ_cons]
      exact ih hrest hi

/-- A page is the first of the marks that the cursor leaves, and goes on at the one after them. -/
theorem listValid_page (hk : MarksKept state) {limit : Rat} {n : ℕ+}
    (hlimit : markPageLimit limit = some n) (trustMarkType : String)
    (subject cursor : Option String) {rest : List TrustMarkRecord}
    (hrest : rest = (MemoryState.listedMarks trustMarkType validAt subject
      ((marksOf state).members.map Prod.snd)).filter fun record =>
        cursor.all (textLe · record.subject)) :
    state.listValid trustMarkType validAt { limit, cursor, subject } =
      .ok { items := rest.take n, nextCursor := rest[(n : Nat)]?.map (·.subject) } := by
  -- without a mark after them, the marks that are left are all on the page
  have hcut : (if (n : Nat) < rest.length then
      (.ok { items := rest.take n, nextCursor := rest[(n : Nat)]?.map (·.subject) } :
        Except ListValidError TrustMarkListPage)
    else .ok { items := rest }) =
      .ok { items := rest.take n, nextCursor := rest[(n : Nat)]?.map (·.subject) } := by
    split
    · rfl
    · rename_i hlast
      rw [not_lt] at hlast
      rw [List.getElem?_eq_none hlast, List.take_of_length_le hlast, Option.map_none]
  rw [← hcut, hrest]
  cases cursor with
  | none =>
    simp only [MemoryState.listValid, hlimit, markRecords_eq hk, Option.all_none, List.filter_true]
  | some cursor =>
    simp only [MemoryState.listValid, hlimit, markRecords_eq hk, Option.all_some]

/-- One page is the next items of the whole list. -/
theorem listValid_eq (hk : MarksKept state) {limit : Rat} {n : ℕ+} (hlimit : markPageLimit limit = some n)
    (trustMarkType : String) (subject : Option String) {cursor : Option String} {i : Nat}
    {l : List TrustMarkRecord}
    (hl : l = MemoryState.listedMarks trustMarkType validAt subject
      ((marksOf state).members.map Prod.snd))
    (hcursor : cursor = none ∧ i = 0 ∨ ∃ record, l[i]? = some record ∧
      cursor = some record.subject) :
    state.listValid trustMarkType validAt { limit, cursor, subject } =
      .ok { items := (l.drop i).take n, nextCursor := l[i + n]?.map (·.subject) } := by
  have hrest : l.drop i = l.filter fun record => cursor.all (textLe · record.subject) := by
    rcases hcursor with ⟨rfl, rfl⟩ | ⟨record, hi, rfl⟩
    · simp only [List.drop_zero, Option.all_none, List.filter_true]
    · have hsorted : l.Pairwise fun a b => Utf16.mk a.subject < Utf16.mk b.subject := by
        rw [hl]
        exact sorted_sortedLatest _ _
      exact (filter_eq_drop hsorted hi).symm
  rw [hl] at hrest
  rw [listValid_page hk hlimit trustMarkType subject cursor hrest, ← hl, List.getElem?_drop]

theorem Follows.unique {trustMarkType : String} {limit : Rat} {subject cursor : Option String}
    {items items' : List TrustMarkRecord}
    (h : Follows state trustMarkType validAt limit subject cursor items)
    (h' : Follows state trustMarkType validAt limit subject cursor items') : items = items' := by
  induction h generalizing items' with
  | last hpage =>
    cases h' with
    | last hpage' =>
      rw [hpage] at hpage'
      simpa using hpage'
    | next hpage' _ =>
      rw [hpage] at hpage'
      simp at hpage'
  | next hpage _ ih =>
    cases h' with
    | last hpage' =>
      rw [hpage] at hpage'
      simp at hpage'
    | next hpage' hrest' =>
      rw [hpage] at hpage'
      simp only [Except.ok.injEq, TrustMarkListPage.mk.injEq, Option.some.injEq] at hpage'
      obtain ⟨rfl, rfl⟩ := hpage'
      rw [ih hrest']

/-- The pages from an item on hold the items from it on. -/
theorem follows_drop (hk : MarksKept state) {limit : Rat} {n : ℕ+} (hlimit : markPageLimit limit = some n)
    (trustMarkType : String) (subject : Option String) {l : List TrustMarkRecord}
    (hl : l = MemoryState.listedMarks trustMarkType validAt subject
      ((marksOf state).members.map Prod.snd)) {cursor : Option String} {i : Nat}
    (hcursor : cursor = none ∧ i = 0 ∨ ∃ record, l[i]? = some record ∧
      cursor = some record.subject) :
    Follows state trustMarkType validAt limit subject cursor (l.drop i) := by
  have hpos := n.pos
  induction hm : l.length - i using Nat.strong_induction_on generalizing cursor i with
  | _ m ih =>
    have hpage := listValid_eq hk hlimit trustMarkType subject hl hcursor
    cases hnext : l[i + n]? with
    | none =>
      rw [hnext, Option.map_none] at hpage
      rw [List.getElem?_eq_none_iff] at hnext
      rw [List.take_of_length_le (by rw [List.length_drop]; omega)] at hpage
      exact .last hpage
    | some record =>
      rw [hnext, Option.map_some] at hpage
      have hlt := (List.getElem?_eq_some_iff.mp hnext).1
      have hrest := ih (l.length - (i + n)) (by omega) (.inr ⟨record, hnext, rfl⟩) rfl
      have hsplit : l.drop i = (l.drop i).take n ++ l.drop (i + n) := by
        rw [← List.drop_drop, List.take_append_drop]
      rw [hsplit]
      exact .next hpage hrest

/-! ### The queries, one by one -/

theorem isSome_newestMark {trustMarkType subject : String} :
    (newestMark state validAt trustMarkType subject).isSome ↔
      ∃ record ∈ (marksOf state).members.map Prod.snd, record.trustMarkType = trustMarkType ∧
        record.subject = subject ∧ isValidTrustMark record validAt = true := by
  rw [(selects_newestMark trustMarkType subject).isSome_iff]
  exact exists_congr fun record => mem_validMarksOf

theorem find?_listedMarks (hk : MarksKept state) (trustMarkType : String) (subject : Option String)
    (s : String) :
    (MemoryState.listedMarks trustMarkType validAt subject
      ((marksOf state).members.map Prod.snd)).find? (fun record => record.subject == s) =
      if subject.all (s == ·) then newestMark state validAt trustMarkType s else none := by
  rw [MemoryState.listedMarks, find?_sortedLatest]
  split
  · rename_i hs
    refine latestBy_eq_newest hk fun record => ?_
    rw [List.mem_filter, mem_validMarksOf]
    simp only [Bool.and_eq_true, beq_iff_eq]
    constructor
    · rintro ⟨⟨hmem, ⟨htype, -⟩, hvalid⟩, rfl⟩
      exact ⟨hmem, htype, rfl, hvalid⟩
    · rintro ⟨hmem, htype, rfl, hvalid⟩
      exact ⟨⟨hmem, ⟨htype, hs⟩, hvalid⟩, rfl⟩
  · -- other subjects than the one asked for are not looked at
    rename_i hs
    refine Selects.unique (l := ((((marksOf state).members.map Prod.snd).filter fun record =>
      record.trustMarkType == trustMarkType && subject.all (record.subject == ·) &&
        isValidTrustMark record validAt).filter fun record => record.subject == s)) ?_
      (selects_latestBy s) ?_
    · exact (ranked_marks hk).subset
        (List.Subset.trans (List.filter_subset_self _) (List.filter_subset_self _))
    · rw [Selects, List.eq_nil_iff_forall_not_mem]
      intro record hmem
      simp only [List.mem_filter, Bool.and_eq_true, beq_iff_eq] at hmem
      obtain ⟨⟨-, ⟨-, hall⟩, -⟩, rfl⟩ := hmem
      exact hs hall

theorem listValidForSubject_eq (hk : MarksKept state) (subject : String) : ∃ items,
    state.listValidForSubject subject validAt = .ok items ∧
      (items.Pairwise fun a b => Utf16.mk a.trustMarkType < Utf16.mk b.trustMarkType) ∧
      ∀ trustMarkType, items.find? (fun record => record.trustMarkType == trustMarkType) =
        newestMark state validAt trustMarkType subject := by
  refine ⟨_, by rw [MemoryState.listValidForSubject, markRecords_eq hk], sorted_sortedLatest _ _,
    fun trustMarkType => ?_⟩
  rw [find?_sortedLatest]
  refine latestBy_eq_newest hk fun record => ?_
  rw [List.mem_filter, mem_validMarksOf]
  simp only [Bool.and_eq_true, beq_iff_eq]
  tauto

theorem hasAnyValid_eq (hk : MarksKept state) (subject : String) : ∃ b,
    state.hasAnyValid subject validAt = .ok b ∧
      (b = true ↔ ∃ trustMarkType,
        (newestMark state validAt trustMarkType subject).isSome) := by
  refine ⟨_, by rw [MemoryState.hasAnyValid, markRecords_eq hk], ?_⟩
  simp only [List.any_eq_true, Bool.and_eq_true, beq_iff_eq, isSome_newestMark]
  constructor
  · rintro ⟨record, hmem, hsubject, hvalid⟩
    exact ⟨record.trustMarkType, record, hmem, rfl, hsubject, hvalid⟩
  · rintro ⟨trustMarkType, record, hmem, -, hsubject, hvalid⟩
    exact ⟨record, hmem, hsubject, hvalid⟩

theorem hasValidMark_iff {filter : ListFilter} {record : SubordinateRecord} :
    hasValidMark filter (marksOf state) validAt record = true ↔ ∃ trustMarkType,
      filter.trustMarkType.all (fun types => types.contains trustMarkType) ∧
        (newestMark state validAt trustMarkType record.entityId).isSome := by
  simp only [hasValidMark, List.any_eq_true, Bool.and_eq_true, beq_iff_eq, isSome_newestMark]
  constructor
  · rintro ⟨e, hmem, ⟨hsubject, htype⟩, hvalid⟩
    exact ⟨e.2.trustMarkType, htype, e.2, List.mem_map_of_mem hmem, rfl, hsubject, hvalid⟩
  · rintro ⟨trustMarkType, htype, mark, hmem, rfl, hsubject, hvalid⟩
    obtain ⟨e, he, rfl⟩ := List.mem_map.mp hmem
    exact ⟨e, he, ⟨hsubject, htype⟩, hvalid⟩

theorem mem_listResults {filter : ListFilter} {options : ListPageOptions}
    {marks : Option (Dict String TrustMarkRecord × Rat)} {record : SubordinateRecord} :
    record ∈ listResults filter options marks state ↔
      record ∈ state.subordinates.members.map Prod.snd ∧
        admits filter options marks record = true ∧
          options.cursor.all (textLe · record.entityId) = true := by
  simp only [listResults]
  cases options.cursor with
  | none => simp
  | some cursor => simp [and_assoc]

theorem list_marks_eq (hk : MarksKept state) {filter : ListFilter} {options : ListPageOptions}
    (hvalidAt : filter.validAt = some validAt)
    (hmarks : filter.trustMarked = some true ∨ filter.trustMarkType.isSome)
    (hlimit : options.limit = none) : ∃ page all, state.list filter options = .ok page ∧
      state.list filter.withoutMarks options = .ok all ∧
      ∀ record, record ∈ page.items ↔ record ∈ all.items ∧ ∃ trustMarkType,
        filter.trustMarkType.all (fun types => types.contains trustMarkType) ∧
          (newestMark state validAt trustMarkType record.entityId).isSome := by
  have hasked : filter.marks state = .ok (some (marksOf state, validAt)) := by
    rw [ListFilter.marks, if_pos hmarks, hvalidAt, hk.enabled]
  have hwithout : filter.withoutMarks.marks state = .ok none := by
    rw [ListFilter.marks, if_neg]
    simp [ListFilter.withoutMarks]
  refine ⟨_, _, by rw [MemoryState.list, hasked], by rw [MemoryState.list, hwithout],
    fun record => ?_⟩
  simp only [hlimit, cutPage, mem_listResults, ← hasValidMark_iff]
  have hadmits : admits filter options (some (marksOf state, validAt)) record = true ↔
      admits filter.withoutMarks options none record = true ∧
        hasValidMark filter (marksOf state) validAt record = true := by
    simp only [admits, ListFilter.withoutMarks, Option.all_some, Option.all_none, Bool.and_true,
      Bool.and_eq_true]
    tauto
  rw [hadmits]
  tauto

/-- The queries of a state whose records are under their JWTs agree. -/
theorem queriesAgree_of_kept (hk : MarksKept state) (validAt : Rat) :
    QueriesAgree state validAt (newestMark state validAt) where
  greatest := selects_newestMark
  getValid trustMarkType subject := getValid_eq hk trustMarkType subject validAt
  listValid trustMarkType subject limit hlimit := by
    obtain ⟨n, hn⟩ := Option.isSome_iff_exists.mp hlimit
    have hfollows : Follows state trustMarkType validAt limit subject none
        ((MemoryState.listedMarks trustMarkType validAt subject
          ((marksOf state).members.map Prod.snd)).drop 0) :=
      follows_drop hk hn trustMarkType subject rfl (.inl ⟨rfl, rfl⟩)
    rw [List.drop_zero] at hfollows
    refine ⟨_, fun items' => ⟨fun h => h.unique hfollows, ?_⟩, sorted_sortedLatest _ _,
      find?_listedMarks hk trustMarkType subject⟩
    rintro rfl
    exact hfollows
  listValidForSubject := listValidForSubject_eq hk
  hasAnyValid := hasAnyValid_eq hk
  list _ _ := list_marks_eq hk

end Agreement

/-! ## The states of an adapter -/

/-- A section of a computation with a transaction's `tx`: it reads, or makes one mutation. -/
def TxUpdate (update : MemoryState → MemoryState) : Prop :=
  (∀ state, update state = state) ∨
    ∃ (m : Mutation) (now : Rat), ∀ state, update state = (m.apply now state).2

/-- Every section of a computation is of a kind. -/
inductive Script.Through {σ β : Type} (kind : (σ → σ) → Prop) : Script σ β → Prop
  | done (b : β) : Through kind (.done b)
  | step {update : σ → σ} {next : σ → Script σ β} : kind update →
      (∀ s, Through kind (next s)) → Through kind (.step update next)

/-- What every section keeps, the computation keeps. -/
theorem Script.Through.keeps {σ β : Type} {kind : (σ → σ) → Prop} {I : σ → Prop}
    (hkeeps : ∀ update, kind update → ∀ s, I s → I (update s)) {x : Script σ β}
    (hx : Script.Through kind x) {s : σ} (hs : I s) : I (x.run s).2 := by
  induction hx generalizing s with
  | done b => exact hs
  | step hupdate _ ih => exact ih s (hkeeps _ hupdate s hs)

/-- The operations of an adapter: its mutations, and transactions that use their `tx` alone. -/
inductive StorageWrite {α : Type} : StorageOperation α → Prop
  | mutation {m : Mutation} (now : Rat) : m.check = .ok () → StorageWrite (mutationOperation m now)
  | transaction {callback : Transaction α} : Script.Through TxUpdate callback.run →
      StorageWrite (transactionOperation callback)

theorem MarksKept.of_trustMarks {state state' : MemoryState} (hk : MarksKept state)
    (h : state'.trustMarks = state.trustMarks) : MarksKept state' := by
  have hmarks : marksOf state' = marksOf state := by rw [marksOf, h, marksOf]
  exact ⟨by rw [h, hmarks, hk.enabled], fun jwt record hget =>
    hk.keyed jwt record (by rw [← hmarks]; exact hget)⟩

/-- Every mutation keeps the records under their JWTs. -/
theorem MarksKept.apply {state : MemoryState} (hk : MarksKept state) (m : Mutation) (now : Rat) :
    MarksKept (m.apply now state).2 := by
  cases m with
  | add record =>
    simp only [Mutation.apply, MemoryState.addSubordinate]
    split <;> exact hk.of_trustMarks rfl
  | update entityId updates =>
    simp only [Mutation.apply, MemoryState.updateSubordinate]
    split
    · exact hk
    · split <;> exact hk.of_trustMarks rfl
  | remove entityId =>
    simp only [Mutation.apply, MemoryState.removeSubordinate]
    split <;> exact hk.of_trustMarks rfl
  | issue record =>
    simp only [Mutation.apply, issueTrustMark_eq hk]
    split
    · exact hk
    · refine ⟨rfl, fun jwt r hget => ?_⟩
      rw [marksOf_set, Dict.get?_set] at hget
      split at hget
      · rename_i hjwt
        rw [← Option.some.inj hget, hjwt]
      · exact hk.keyed jwt r hget
  | revoke trustMarkType subject revokedAt =>
    have hrevoked : MarksKept { state with
        trustMarks :=
          some ((marksOf state).mapValues (revokeRecord trustMarkType subject revokedAt)) } := by
      refine ⟨rfl, fun jwt r hget => ?_⟩
      rw [marksOf, Option.getD_some, Dict.get?_mapValues] at hget
      obtain ⟨r', hr', rfl⟩ := Option.map_eq_some_iff.mp hget
      rw [revokeRecord_jwt]
      exact hk.keyed jwt r' hr'
    simp only [Mutation.apply, MemoryState.revokeTrustMark]
    rw [hk.enabled]
    simp only
    split <;> exact hrevoked
  | append issuer subject events =>
    simp only [Mutation.apply, MemoryState.appendEvents]
    split <;> exact hk.of_trustMarks rfl

theorem MarksKept.write {α : Type} {operation : StorageOperation α} (h : StorageWrite operation)
    {state : MemoryState} (hk : MarksKept state) : MarksKept (operation.run state).2 := by
  cases h with
  | mutation now _ => exact hk.apply _ now
  | @transaction callback hcallback =>
    rw [transactionOperation_run]
    have hdraft : MarksKept (callback.run.run state).2 := by
      refine hcallback.keeps (fun update hupdate s hs => ?_) hk
      rcases hupdate with hread | ⟨m, now, hmutation⟩
      · rw [hread]
        exact hs
      · rw [hmutation]
        exact hs.apply m now
    cases hrun : Script.runExcept callback state with
    | mk result draft =>
      cases result with
      | ok a =>
        have hfst : (callback.run.run state).2 = draft := congrArg Prod.snd hrun
        exact hfst ▸ hdraft
      | error e => exact hk

/-- The state of a new adapter with Trust Marks. -/
def newStorage (subordinateEvents : Bool) : MemoryState :=
  ⟨.empty, some .empty, if subordinateEvents then some .empty else none⟩

/-- A new adapter with Trust Marks, and all that is done with it. -/
def markStorageAdapter (α : Type) (subordinateEvents : Bool) : System :=
  exclusive (StorageWrite (α := α)) (newStorage subordinateEvents)

/-- In every reachable state, and at every time, the queries agree on the newest valid mark of each
type for each subject. -/
theorem trustMark_queries_agree {α : Type} {subordinateEvents : Bool}
    {S : State MemoryState StorageError (Option α)}
    (h : (markStorageAdapter α subordinateEvents).Reach S) (validAt : Rat) :
    ∃ newest, QueriesAgree S.shared validAt newest := by
  obtain ⟨k, hk⟩ := serial_of_reach h
  have hkept : MarksKept S.shared := by
    rw [hk.shared]
    refine stateAfter_invariant (I := MarksKept) ⟨rfl, fun jwt record hget => ?_⟩
      fun op hop state hstate => ?_
    · simp [marksOf, newStorage] at hget
    · exact hstate.write (kind_of_reach h op (List.mem_of_mem_take hop))
  exact ⟨_, queriesAgree_of_kept hkept validAt⟩

/-! ## A run -/

/-- A mark of one type, issued at a time. -/
def markIssued (subject jwt : String) (issuedAt : Rat) : TrustMarkRecord where
  trustMarkType := "https://tm.example"
  subject := subject
  jwt := jwt
  issuedAt := issuedAt
  active := true

/-- Three marks for two subjects: the one issued last is not stored last. -/
def issuedMarks : List (Move MemoryState StorageError (Option Unit)) :=
  [.invoke (mutationOperation (.issue (markIssued "https://b.example" "b.new" 30)) 30),
    .invoke (mutationOperation (.issue (markIssued "https://b.example" "b.old" 20)) 40),
    .invoke (mutationOperation (.issue (markIssued "https://a.example" "a" 10)) 50),
    .advance 0, .advance 0, .advance 1, .advance 1, .advance 2, .advance 2]

theorem issuedMarks_agree : ∃ S, play { shared := newStorage false } issuedMarks = some S ∧
    (∃ newest, QueriesAgree S.shared 60 newest) ∧
      S.shared.listValid "https://tm.example" 60 { limit := 1 } =
        .ok { items := [markIssued "https://a.example" "a" 10],
              nextCursor := some "https://b.example" } ∧
      S.shared.listValidForSubject "https://b.example" 60 =
        .ok [markIssued "https://b.example" "b.new" 30] := by
  refine ⟨_, rfl, ?_, by decide +kernel, by decide +kernel⟩
  refine trustMark_queries_agree (reach_play issuedMarks (.init rfl) ?_ rfl) 60
  intro op hop
  simp only [issuedMarks, List.mem_cons, Move.invoke.injEq, reduceCtorEq, or_false,
    List.not_mem_nil, or_self] at hop
  rcases hop with rfl | rfl | rfl
  · exact .mutation 30 rfl
  · exact .mutation 40 rfl
  · exact .mutation 50 rfl

end OidFed
