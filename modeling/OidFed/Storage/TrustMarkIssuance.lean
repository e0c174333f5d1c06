import OidFed.Jose
import OidFed.Schema
import OidFed.Storage.Adapter

/-!
# Issuance of Trust Marks (`authority/src/endpoints/trust-mark.ts`)

`createTrustMarkIssuanceHandler` answers with a valid mark that is stored. Where there is none, it
signs a new one, and in a transaction it looks again and stores it. Requests, signatures and
revocations interleave freely; what they do to the storage goes through the adapter.

* `IssuanceStep`: the system of requests over the adapter.
* `MarkCall`: the two operations that the adapter is called with. `after_issuance` and
  `after_revocation` say what each does to the records.
* `issuanceHolds_iff`: every returned mark is active and unexpired when it is returned, unless the
  signer makes a JWT under which a record is stored that is revoked or expired: storing it again
  has no effect, and the handler returns it (`revoked_mark_returned`). A revoked record stays
  revoked, and at most one record outlives every issuance, in any case.
-/

namespace OidFed

open Js Exclusive

/-- What the handler reads of its context. -/
structure IssuanceContext where
  entityId : String
  trustMarkIssuers : Option (Dict String (List String)) := none
  trustMarkTtlSeconds : Option Rat := none

def defaultDelegationTtlSeconds : Rat := 86400

def IssuanceContext.ttl (ctx : IssuanceContext) : Rat :=
  ctx.trustMarkTtlSeconds.getD defaultDelegationTtlSeconds

/-- The method and the parameters of a request. -/
structure IssuanceRequest where
  method : String := "GET"
  trustMarkType : Option String
  sub : Option String

structure ErrorResponse where
  status : Nat
  code : String
  description : String := ""
  deriving DecidableEq

/-- Where a request is. -/
inductive Issuance where
  | refused (response : ErrorResponse)
  /-- An authorized issuers' entry that is not a list: the promise is rejected. -/
  | rejected
  /-- Answered with a stored mark, at a time and in the state that has been read. -/
  | answered (record : TrustMarkRecord) (now : Rat) (read : MemoryState)
  | signing (trustMarkType subject : String) (now : Rat)
  /-- In the adapter's queue, with a signed mark. -/
  | committing (trustMarkType subject jwt : String) (now : Rat) (call : Nat)
  | failed
  deriving DecidableEq

section Request

variable (P : Platform) (ctx : IssuanceContext) (request : IssuanceRequest)

/-- The checks on a request: the type and the subject, or the response; `none` where it throws. -/
def checkIssuanceRequest (state : MemoryState) :
    Except (Option ErrorResponse) (String × String) :=
  if request.method != "GET" then .error (some { status := 405, code := "method_not_allowed" })
  else if state.trustMarks.isNone then
    .error (some ⟨501, "server_error", "Trust mark store not configured"⟩)
  else
    match request.trustMarkType with
    | none | some "" =>
      .error (some ⟨400, "invalid_request", "Missing 'trust_mark_type' parameter"⟩)
    | some trustMarkType =>
      let sub := request.sub.getD ""
      if sub = "" || !isValidEntityId P sub then
        .error (some ⟨400, "invalid_request", "Missing or invalid 'sub' parameter"⟩)
      else
        let denied : ErrorResponse := ⟨403, "unauthorized_issuer",
          s!"Not authorized to issue trust mark '{trustMarkType}'"⟩
        match ctx.trustMarkIssuers with
        | none => .ok (trustMarkType, sub)
        | some issuers =>
          match issuers.read trustMarkType with
          | .undefined => .ok (trustMarkType, sub)
          | .builtin _ => .error none
          | .own authorized =>
            if authorized.contains ctx.entityId then .ok (trustMarkType, sub)
            else .error (some denied)

/-- A request arrives, and looks for a stored mark. -/
def receive (state : MemoryState) (now : Rat) : Issuance :=
  match checkIssuanceRequest P ctx request state with
  | .error (some response) => .refused response
  | .error none => .rejected
  | .ok (trustMarkType, subject) =>
    match state.getValid trustMarkType subject now with
    | .error _ => .failed
    | .ok (some existing) => .answered existing now state
    | .ok none => .signing trustMarkType subject now

end Request

/-- The record of a signed mark. -/
def candidateMark (ttl : Rat) (trustMarkType subject jwt : String) (now : Rat) : TrustMarkRecord where
  trustMarkType := trustMarkType
  subject := subject
  jwt := jwt
  issuedAt := now
  expiresAt := some (now + ttl)
  active := true

/-- The callback of the transaction. -/
def issuanceCallback (candidate : TrustMarkRecord) (now : Rat) : Transaction TrustMarkRecord := do
  txRead fun draft =>
    if draft.trustMarks.isNone then .error (.error "Trust mark storage is not configured")
    else .ok ()
  let winner ← txRead fun draft =>
    draft.getValid candidate.trustMarkType candidate.subject now
  match winner with
  | some winner => return winner
  | none => do
    txMutate (.issue candidate) now
    return candidate

/-- The operations that the adapter is called with. -/
inductive MarkCall where
  | issuance (trustMarkType subject jwt : String) (now : Rat)
  | revocation (trustMarkType subject : String) (revokedAt : Rat)

def MarkCall.operation (ttl : Rat) : MarkCall → StorageOperation TrustMarkRecord
  | issuance trustMarkType subject jwt now =>
    transactionOperation (issuanceCallback (candidateMark ttl trustMarkType subject jwt now) now)
  | revocation trustMarkType subject revokedAt =>
    mutationOperation (.revoke trustMarkType subject revokedAt) revokedAt

/-- The adapter, the time, and the requests that have arrived. -/
structure IssuanceState where
  adapter : State MemoryState StorageError (Option TrustMarkRecord)
  now : Rat
  requests : List Issuance := []

/-- An adapter without records. -/
def IssuanceState.start (now : Rat) : IssuanceState where
  adapter := { shared := ⟨.empty, some .empty, none⟩ }
  now := now

/-- The signer answers request `i` with a JWT: its transaction is called. -/
def commitMark (ttl : Rat) (S : IssuanceState) (i : Nat) (trustMarkType subject jwt : String)
    (now : Rat) : IssuanceState :=
  { S with
    adapter := invoke S.adapter ((MarkCall.issuance trustMarkType subject jwt now).operation ttl)
    requests := S.requests.set i
      (.committing trustMarkType subject jwt now S.adapter.calls.length) }

/-- The steps of requests to handlers with a common time to live. -/
inductive IssuanceStep (P : Platform) (ttl : Rat) : IssuanceState → IssuanceState → Prop
  | tick {S : IssuanceState} {now : Rat} : S.now ≤ now → IssuanceStep P ttl S { S with now }
  | request {S : IssuanceState} {ctx : IssuanceContext} (request : IssuanceRequest) :
      ctx.ttl = ttl → IssuanceStep P ttl S
        { S with requests := S.requests ++ [receive P ctx request S.adapter.shared S.now] }
  | sign {S : IssuanceState} {i : Nat} {trustMarkType subject : String} {now : Rat} (jwt : String) :
      S.requests[i]? = some (.signing trustMarkType subject now) →
        IssuanceStep P ttl S (commitMark ttl S i trustMarkType subject jwt now)
  | signFails {S : IssuanceState} {i : Nat} {trustMarkType subject : String} {now : Rat} :
      S.requests[i]? = some (.signing trustMarkType subject now) →
        IssuanceStep P ttl S { S with requests := S.requests.set i .failed }
  | revoke {S : IssuanceState} (trustMarkType subject : String) (revokedAt : Rat) :
      IssuanceStep P ttl S { S with
        adapter := invoke S.adapter ((MarkCall.revocation trustMarkType subject revokedAt).operation ttl) }
  | adapter {S : IssuanceState} {A : State MemoryState StorageError (Option TrustMarkRecord)} (i : Nat) :
      advance S.adapter i = some A → IssuanceStep P ttl S { S with adapter := A }

def trustMarkIssuance (P : Platform) (ttl : Rat) : System where
  St := IssuanceState
  init S := ∃ now, S = .start now
  step := IssuanceStep P ttl

/-! ## What the operations do -/

def marksOf (state : MemoryState) : Dict String TrustMarkRecord := state.trustMarks.getD .empty

/-- The storage is enabled, and its records are under their JWTs. -/
structure MarksKept (state : MemoryState) : Prop where
  enabled : state.trustMarks = some (marksOf state)
  keyed : ∀ jwt record, (marksOf state).get? jwt = some record → record.jwt = jwt

/-- A record is stored under a JWT that is active and unexpired at a time. -/
def StoredValid (state : MemoryState) (jwt : String) (now : Rat) : Prop :=
  ∃ record, (marksOf state).get? jwt = some record ∧ isValidTrustMark record now = true

/-- No mark of a type for a subject is valid at a time. -/
def NoneValid (state : MemoryState) (trustMarkType subject : String) (now : Rat) : Prop :=
  ∀ jwt record, (marksOf state).get? jwt = some record → record.trustMarkType = trustMarkType →
    record.subject = subject → isValidTrustMark record now = false

theorem mem_marks {state : MemoryState} {record : TrustMarkRecord} :
    record ∈ (marksOf state).members.map Prod.snd ↔
      ∃ jwt, (marksOf state).get? jwt = some record := by
  simp [Dict.get?_eq_some_iff]

theorem getValid_eq {state : MemoryState} (hk : MarksKept state) (trustMarkType subject : String)
    (now : Rat) : state.getValid trustMarkType subject now = .ok
      (((((marksOf state).members.map Prod.snd).filter fun record =>
        record.trustMarkType == trustMarkType && record.subject == subject &&
          isValidTrustMark record now).mergeSort preferredTrustMark).head?) := by
  unfold MemoryState.getValid
  rw [hk.enabled]

theorem getValid_some {state : MemoryState} (hk : MarksKept state) {trustMarkType subject : String}
    {now : Rat} {record : TrustMarkRecord}
    (h : state.getValid trustMarkType subject now = .ok (some record)) :
    (marksOf state).get? record.jwt = some record ∧ record.trustMarkType = trustMarkType ∧
      record.subject = subject ∧ isValidTrustMark record now = true := by
  rw [getValid_eq hk] at h
  have hmem := List.mem_of_mem_head? (Except.ok.inj h)
  rw [List.mem_mergeSort, List.mem_filter] at hmem
  obtain ⟨hmem, hcond⟩ := hmem
  obtain ⟨jwt, hjwt⟩ := mem_marks.mp hmem
  simp only [Bool.and_eq_true, beq_iff_eq] at hcond
  obtain rfl := hk.keyed jwt record hjwt
  exact ⟨hjwt, hcond.1.1, hcond.1.2, hcond.2⟩

theorem getValid_none {state : MemoryState} (hk : MarksKept state) {trustMarkType subject : String}
    {now : Rat} (h : state.getValid trustMarkType subject now = .ok none) :
    NoneValid state trustMarkType subject now := by
  rw [getValid_eq hk] at h
  have hempty := List.head?_eq_none_iff.mp (Except.ok.inj h)
  intro jwt record hget htype hsubject
  by_contra hvalid
  have hmem : record ∈ ((((marksOf state).members.map Prod.snd).filter fun record =>
      record.trustMarkType == trustMarkType && record.subject == subject &&
        isValidTrustMark record now).mergeSort preferredTrustMark) := by
    rw [List.mem_mergeSort, List.mem_filter]
    refine ⟨mem_marks.mpr ⟨jwt, hget⟩, ?_⟩
    simp only [htype, hsubject, beq_self_eq_true, Bool.true_and]
    simpa using hvalid
  rw [hempty] at hmem
  simp at hmem

theorem issueTrustMark_eq {state : MemoryState} (hk : MarksKept state) (record : TrustMarkRecord) :
    state.issueTrustMark record = (.ok (),
      if ((marksOf state).get? record.jwt).isSome then state
      else { state with trustMarks := some ((marksOf state).set record.jwt record) }) := by
  unfold MemoryState.issueTrustMark
  rw [hk.enabled]
  simp only
  split <;> rfl

/-- An issuance returns a valid record that is stored, or its own, which it stores unless a record
is under the JWT already. -/
theorem issuance_cases {state : MemoryState} (hk : MarksKept state) (ttl : Rat)
    (trustMarkType subject jwt : String) (now : Rat) : ∃ record state',
      ((MarkCall.issuance trustMarkType subject jwt now).operation ttl).run state =
        (.ok (some record), state') ∧
      ((state' = state ∧ StoredValid state record.jwt now ∧
          ¬ NoneValid state trustMarkType subject now) ∨
        (record = candidateMark ttl trustMarkType subject jwt now ∧
          NoneValid state trustMarkType subject now ∧
          (((∃ r, (marksOf state).get? jwt = some r) ∧ state' = state) ∨
            ((marksOf state).get? jwt = none ∧
              state' = { state with trustMarks := some ((marksOf state).set jwt record) })))) := by
  let candidate := candidateMark ttl trustMarkType subject jwt now
  have hrun : ∀ winner, state.getValid trustMarkType subject now = .ok winner →
      Script.runExcept (issuanceCallback candidate now) state =
        match winner with
        | some winner => (.ok winner, state)
        | none => (.ok candidate, (state.issueTrustMark candidate).2) := by
    intro winner hw
    unfold issuanceCallback
    rw [Script.runExcept_bind, runExcept_txRead, hk.enabled]
    simp only [Option.isNone_some, Bool.false_eq_true, if_false]
    rw [Script.runExcept_bind, runExcept_txRead,
      show state.getValid candidate.trustMarkType candidate.subject now = .ok winner from hw]
    cases winner with
    | some winner => rfl
    | none =>
      simp only
      rw [Script.runExcept_bind, runExcept_txMutate now rfl, Mutation.apply, issueTrustMark_eq hk]
      rfl
  cases hw : state.getValid trustMarkType subject now with
  | error e =>
    rw [getValid_eq hk] at hw
    simp at hw
  | ok winner =>
    have hop := transactionOperation_run (issuanceCallback candidate now) state
    rw [hrun winner hw] at hop
    cases winner with
    | some winner =>
      obtain ⟨hget, htype, hsubject, hvalid⟩ := getValid_some hk hw
      refine ⟨winner, state, hop, .inl ⟨rfl, ⟨winner, hget, hvalid⟩, fun hnone => ?_⟩⟩
      have := hnone winner.jwt winner hget htype hsubject
      rw [hvalid] at this
      simp at this
    | none =>
      refine ⟨candidate, _, hop, .inr ⟨rfl, getValid_none hk hw, ?_⟩⟩
      rw [issueTrustMark_eq hk, show candidate.jwt = jwt from rfl]
      by_cases hget : ((marksOf state).get? jwt).isSome
      · exact .inl ⟨Option.isSome_iff_exists.mp hget, if_pos hget⟩
      · exact .inr ⟨by simpa using hget, if_neg hget⟩

theorem revocation_cases {state : MemoryState} (hk : MarksKept state) (ttl : Rat)
    (trustMarkType subject : String) (revokedAt : Rat) :
    marksOf (((MarkCall.revocation trustMarkType subject revokedAt).operation ttl).run state).2 =
        (marksOf state).mapValues (revokeRecord trustMarkType subject revokedAt) ∧
      (((MarkCall.revocation trustMarkType subject revokedAt).operation ttl).run state).2.trustMarks =
        some ((marksOf state).mapValues (revokeRecord trustMarkType subject revokedAt)) := by
  have h : (((MarkCall.revocation trustMarkType subject revokedAt).operation ttl).run state).2.trustMarks =
      some ((marksOf state).mapValues (revokeRecord trustMarkType subject revokedAt)) := by
    simp only [MarkCall.operation, mutationOperation, Operation.run, Mutation.apply,
      MemoryState.revokeTrustMark, hk.enabled]
    split <;> rfl
  exact ⟨by rw [marksOf, h]; rfl, h⟩

/-! ## The records over a run -/

/-- A record is stored under a JWT that has been revoked. -/
def Revoked (state : MemoryState) (jwt : String) : Prop :=
  ∃ record, (marksOf state).get? jwt = some record ∧ record.active = false

/-- At most one mark of a type for a subject is active and unexpired at all of some times. -/
def UniqueAbove (state : MemoryState) (times : Rat → Prop) : Prop :=
  ∀ jwt₁ jwt₂ r₁ r₂, (marksOf state).get? jwt₁ = some r₁ → (marksOf state).get? jwt₂ = some r₂ →
    r₁.trustMarkType = r₂.trustMarkType → r₁.subject = r₂.subject →
    r₁.active = true → r₂.active = true → (∀ t, times t → isValidTrustMark r₁ t = true) →
    (∀ t, times t → isValidTrustMark r₂ t = true) → jwt₁ = jwt₂

/-- The storage before any mark is issued. -/
def noMarks : MemoryState := ⟨.empty, some .empty, none⟩

section Records

variable {ttl : Rat} {state : MemoryState}

@[simp] theorem revokeRecord_jwt (trustMarkType subject : String) (revokedAt : Rat)
    (record : TrustMarkRecord) :
    (revokeRecord trustMarkType subject revokedAt record).jwt = record.jwt := by
  unfold revokeRecord
  split <;> rfl

/-- What is active after a revocation has been active, and has not changed. -/
theorem revokeRecord_active {trustMarkType subject : String} {revokedAt : Rat}
    {record : TrustMarkRecord}
    (h : (revokeRecord trustMarkType subject revokedAt record).active = true) :
    revokeRecord trustMarkType subject revokedAt record = record := by
  unfold revokeRecord at h ⊢
  split
  · rename_i hcond
    rw [if_pos hcond] at h
    simp at h
  · rfl

theorem marksOf_set (jwt : String) (record : TrustMarkRecord) :
    marksOf { state with trustMarks := some ((marksOf state).set jwt record) } =
      (marksOf state).set jwt record := rfl

theorem MarksKept.step (hk : MarksKept state) (call : MarkCall) :
    MarksKept ((call.operation ttl).run state).2 := by
  cases call with
  | issuance trustMarkType subject jwt now =>
    obtain ⟨record, state', hrun, hcases⟩ := issuance_cases hk ttl trustMarkType subject jwt now
    rw [hrun]
    rcases hcases with ⟨rfl, -⟩ | ⟨rfl, -, ⟨-, rfl⟩ | ⟨-, rfl⟩⟩
    · exact hk
    · exact hk
    · refine ⟨rfl, fun j r hget => ?_⟩
      rw [marksOf_set] at hget
      by_cases hj : j = jwt
      · subst hj
        rw [Dict.get?_set_self] at hget
        rw [← Option.some.inj hget]
        rfl
      · rw [Dict.get?_set_ne _ _ hj] at hget
        exact hk.keyed j r hget
  | revocation trustMarkType subject revokedAt =>
    obtain ⟨hmarks, henabled⟩ := revocation_cases hk ttl trustMarkType subject revokedAt
    refine ⟨by rw [henabled, hmarks], fun j r hget => ?_⟩
    rw [hmarks, Dict.get?_mapValues] at hget
    obtain ⟨r', hr', rfl⟩ := Option.map_eq_some_iff.mp hget
    rw [revokeRecord_jwt]
    exact hk.keyed j r' hr'

/-- A revoked record stays revoked. -/
theorem Revoked.step (hk : MarksKept state) (call : MarkCall) {jwt : String}
    (h : Revoked state jwt) : Revoked ((call.operation ttl).run state).2 jwt := by
  obtain ⟨record, hget, hinactive⟩ := h
  cases call with
  | issuance trustMarkType subject jwt' now =>
    obtain ⟨_, state', hrun, hcases⟩ := issuance_cases hk ttl trustMarkType subject jwt' now
    rw [hrun]
    rcases hcases with ⟨rfl, -⟩ | ⟨rfl, -, ⟨-, rfl⟩ | ⟨habsent, rfl⟩⟩
    · exact ⟨record, hget, hinactive⟩
    · exact ⟨record, hget, hinactive⟩
    · have hne : jwt ≠ jwt' := by
        rintro rfl
        rw [habsent] at hget
        simp at hget
      exact ⟨record, by rw [marksOf_set, Dict.get?_set_ne _ _ hne]; exact hget, hinactive⟩
  | revocation trustMarkType subject revokedAt =>
    obtain ⟨hmarks, -⟩ := revocation_cases hk ttl trustMarkType subject revokedAt
    refine ⟨revokeRecord trustMarkType subject revokedAt record, ?_, ?_⟩
    · rw [hmarks, Dict.get?_mapValues, hget]
      rfl
    · by_contra hactive
      have := revokeRecord_active (by simpa using hactive)
      rw [this, hinactive] at hactive
      exact hactive rfl

/-- The times that an operation adds to those of the issuances. -/
def MarkCall.time? : MarkCall → Option Rat
  | issuance _ _ _ now => some now
  | revocation _ _ _ => none

theorem UniqueAbove.mono {times times' : Rat → Prop} (h : UniqueAbove state times)
    (hsub : ∀ t, times t → times' t) : UniqueAbove state times' := by
  intro jwt₁ jwt₂ r₁ r₂ hget₁ hget₂ htype hsubject hactive₁ hactive₂ hvalid₁ hvalid₂
  exact h jwt₁ jwt₂ r₁ r₂ hget₁ hget₂ htype hsubject hactive₁ hactive₂
    (fun t ht => hvalid₁ t (hsub t ht)) fun t ht => hvalid₂ t (hsub t ht)

theorem UniqueAbove.step (hk : MarksKept state) (call : MarkCall) {times times' : Rat → Prop}
    (h : UniqueAbove state times) (hsub : ∀ t, times t → times' t)
    (htime : ∀ t, call.time? = some t → times' t) :
    UniqueAbove ((call.operation ttl).run state).2 times' := by
  cases call with
  | issuance trustMarkType subject jwt now =>
    obtain ⟨_, state', hrun, hcases⟩ := issuance_cases hk ttl trustMarkType subject jwt now
    rw [hrun]
    rcases hcases with ⟨rfl, -⟩ | ⟨rfl, hnone, ⟨-, rfl⟩ | ⟨habsent, rfl⟩⟩
    · exact h.mono hsub
    · exact h.mono hsub
    · -- a record of before that outlives the issuance is of another type or subject
      have hother : ∀ j r, (marksOf state).get? j = some r → r.trustMarkType = trustMarkType →
          r.subject = subject → ¬ ∀ t, times' t → isValidTrustMark r t = true := by
        intro j r hget htype hsubject hvalid
        have := hvalid now (htime now rfl)
        rw [hnone j r hget htype hsubject] at this
        simp at this
      intro jwt₁ jwt₂ r₁ r₂ hget₁ hget₂ htype hsubject hactive₁ hactive₂ hvalid₁ hvalid₂
      rw [marksOf_set, Dict.get?_set] at hget₁ hget₂
      split at hget₁ <;> split at hget₂
      · rename_i h₁ h₂
        rw [h₁, h₂]
      · obtain rfl := Option.some.inj hget₁
        exact absurd hvalid₂ (hother jwt₂ r₂ hget₂ htype.symm hsubject.symm)
      · obtain rfl := Option.some.inj hget₂
        exact absurd hvalid₁ (hother jwt₁ r₁ hget₁ htype hsubject)
      · exact h.mono hsub jwt₁ jwt₂ r₁ r₂ hget₁ hget₂ htype hsubject hactive₁ hactive₂ hvalid₁ hvalid₂
  | revocation trustMarkType subject revokedAt =>
    obtain ⟨hmarks, -⟩ := revocation_cases hk ttl trustMarkType subject revokedAt
    intro jwt₁ jwt₂ r₁ r₂ hget₁ hget₂ htype hsubject hactive₁ hactive₂ hvalid₁ hvalid₂
    rw [hmarks, Dict.get?_mapValues] at hget₁ hget₂
    obtain ⟨q₁, hq₁, rfl⟩ := Option.map_eq_some_iff.mp hget₁
    obtain ⟨q₂, hq₂, rfl⟩ := Option.map_eq_some_iff.mp hget₂
    have hsame₁ := revokeRecord_active hactive₁
    have hsame₂ := revokeRecord_active hactive₂
    rw [hsame₁, hsame₂] at htype hsubject
    rw [hsame₁] at hactive₁ hvalid₁
    rw [hsame₂] at hactive₂ hvalid₂
    exact h.mono hsub jwt₁ jwt₂ q₁ q₂ hq₁ hq₂ htype hsubject hactive₁ hactive₂ hvalid₁ hvalid₂

/-- The state after calls of the adapter, one after the other. -/
def afterCalls (ttl : Rat) (calls : List MarkCall) : MemoryState :=
  stateAfter noMarks (calls.map (MarkCall.operation ttl))

theorem afterCalls_concat (calls : List MarkCall) (call : MarkCall) :
    afterCalls ttl (calls ++ [call]) = ((call.operation ttl).run (afterCalls ttl calls)).2 := by
  rw [afterCalls, List.map_append, List.map_cons, List.map_nil, stateAfter_concat]
  rfl

theorem marksKept_afterCalls (calls : List MarkCall) : MarksKept (afterCalls ttl calls) := by
  induction calls using List.reverseRecOn with
  | nil => exact ⟨rfl, by simp [afterCalls, noMarks, stateAfter, marksOf]⟩
  | append_singleton calls call ih =>
    rw [afterCalls_concat]
    exact ih.step call

theorem uniqueAbove_afterCalls (calls : List MarkCall) :
    UniqueAbove (afterCalls ttl calls) fun t => ∃ call ∈ calls, call.time? = some t := by
  induction calls using List.reverseRecOn with
  | nil =>
    intro jwt₁ jwt₂ r₁ r₂ hget₁
    simp [afterCalls, noMarks, stateAfter, marksOf] at hget₁
  | append_singleton calls call ih =>
    rw [afterCalls_concat]
    refine ih.step (marksKept_afterCalls calls) call ?_ ?_
    · rintro t ⟨c, hc, ht⟩
      exact ⟨c, List.mem_append_left _ hc, ht⟩
    · exact fun t ht => ⟨call, by simp, ht⟩

theorem revoked_afterCalls {calls : List MarkCall} {jwt : String} {k m : Nat} (hkm : k ≤ m)
    (h : Revoked (afterCalls ttl (calls.take k)) jwt) : Revoked (afterCalls ttl (calls.take m)) jwt := by
  induction m, hkm using Nat.le_induction with
  | base => exact h
  | succ m _ ih =>
    rw [List.take_add_one]
    cases hm : calls[m]? with
    | none => simpa using ih
    | some call =>
      rw [Option.toList_some, afterCalls_concat]
      exact ih.step (marksKept_afterCalls _) call

/-- An issuance returns a JWT under which a valid record is stored exactly when it found one, or
its signer's JWT is not that of a record which is revoked or expired. -/
theorem issuance_stored_iff (hk : MarksKept state) (httl : 0 < ttl)
    {trustMarkType subject jwt : String} {now : Rat} {record : TrustMarkRecord} {state' : MemoryState}
    (hrun : ((MarkCall.issuance trustMarkType subject jwt now).operation ttl).run state =
      (.ok (some record), state')) :
    StoredValid state' record.jwt now ↔ (NoneValid state trustMarkType subject now →
      ∀ r, (marksOf state).get? jwt = some r → isValidTrustMark r now = true) := by
  obtain ⟨record', state'', hrun', hcases⟩ :=
    issuance_cases hk ttl trustMarkType subject jwt now
  rw [hrun] at hrun'
  obtain ⟨hr, rfl⟩ := Prod.mk.inj hrun'
  obtain rfl := Option.some.inj (Except.ok.inj hr)
  rcases hcases with ⟨rfl, hvalid, hnot⟩ | ⟨rfl, hnone, ⟨⟨r, hr⟩, rfl⟩ | ⟨habsent, rfl⟩⟩
  · exact ⟨fun _ hnone => absurd hnone hnot, fun _ => hvalid⟩
  · constructor
    · rintro ⟨q, hq, hvalid⟩ _ r' hr'
      rw [show (candidateMark ttl trustMarkType subject jwt now).jwt = jwt from rfl, hr'] at hq
      rw [Option.some.inj hq]
      exact hvalid
    · exact fun hfresh => ⟨r, hr, hfresh hnone r hr⟩
  · constructor
    · intro _ _ r hr
      rw [habsent] at hr
      simp at hr
    · intro _
      refine ⟨_, Dict.get?_set_self _ _ _, ?_⟩
      simp only [isValidTrustMark, candidateMark, Option.all_some, Bool.true_and, decide_eq_true_eq]
      exact lt_add_of_pos_right now httl

end Records

/-! ## Runs -/

section Runs

variable {P : Platform} {ttl : Rat}

/-- The state of the storage after the first `k` operations. -/
def stateAt (S : IssuanceState) (k : Nat) : MemoryState :=
  stateAfter noMarks (S.adapter.operations.take k)

/-- An issuance among the first `k` operations has used a time. -/
def UsedBefore (S : IssuanceState) (k : Nat) (t : Rat) : Prop :=
  ∃ trustMarkType subject jwt call,
    .committing trustMarkType subject jwt t call ∈ S.requests ∧ call < k

/-- The transaction of a request has returned a record. -/
def Committed (S : IssuanceState) (call : Nat) (record : TrustMarkRecord) : Prop :=
  ∃ c, S.adapter.calls[call]? = some c ∧ c.stage.result? = some (.ok (some record))

/-- What issuance promises. -/
structure IssuanceHolds (S : IssuanceState) : Prop where
  answered : ∀ record now read, .answered record now read ∈ S.requests →
    StoredValid read record.jwt now
  committed : ∀ trustMarkType subject jwt now call record,
    .committing trustMarkType subject jwt now call ∈ S.requests → Committed S call record →
      StoredValid (stateAt S (call + 1)) record.jwt now
  revoked : ∀ k m jwt, k ≤ m → Revoked (stateAt S k) jwt → Revoked (stateAt S m) jwt
  unique : ∀ k, UniqueAbove (stateAt S k) (UsedBefore S k)

/-- Where a transaction finds no valid mark, its JWT is not that of a record that is revoked or
expired. -/
def FreshlySigned (S : IssuanceState) : Prop :=
  ∀ trustMarkType subject jwt now call record,
    .committing trustMarkType subject jwt now call ∈ S.requests → Committed S call record →
      NoneValid (stateAt S call) trustMarkType subject now →
        ∀ r, (marksOf (stateAt S call)).get? jwt = some r → isValidTrustMark r now = true

/-- The requests of a state and the operations of its adapter belong together. -/
structure Linked (ttl : Rat) (S : IssuanceState) (calls : List MarkCall) : Prop where
  reach : (memoryStorageAdapter TrustMarkRecord noMarks).Reach S.adapter
  operations : S.adapter.operations = calls.map (MarkCall.operation ttl)
  committing : ∀ trustMarkType subject jwt now call,
    .committing trustMarkType subject jwt now call ∈ S.requests →
      calls[call]? = some (.issuance trustMarkType subject jwt now)
  issued : ∀ trustMarkType subject jwt now call,
    calls[call]? = some (.issuance trustMarkType subject jwt now) →
      .committing trustMarkType subject jwt now call ∈ S.requests
  answered : ∀ record now read, .answered record now read ∈ S.requests →
    StoredValid read record.jwt now

theorem markCall_operation (call : MarkCall) : AdapterOperation (call.operation ttl) := by
  cases call with
  | issuance trustMarkType subject jwt now => exact .transaction _
  | revocation trustMarkType subject revokedAt => exact .mutation revokedAt rfl

variable {S S' : IssuanceState} {calls : List MarkCall}

theorem Linked.stateAt_eq (h : Linked ttl S calls) (k : Nat) :
    stateAt S k = afterCalls ttl (calls.take k) := by
  rw [stateAt, afterCalls, h.operations, List.map_take]

theorem Linked.kept (h : Linked ttl S calls) : MarksKept S.adapter.shared := by
  obtain ⟨k, -, hshared, -⟩ := (memoryStorage_serializable h.reach).1.committed
  rw [hshared]
  have := h.stateAt_eq k
  rw [stateAt] at this
  rw [this]
  exact marksKept_afterCalls _

theorem Linked.length (h : Linked ttl S calls) : S.adapter.calls.length = calls.length := by
  have := congrArg List.length h.operations
  simpa [State.operations] using this

theorem invoke_operations {σ ε α : Type} (A : State σ ε α) (operation : Operation σ ε α) :
    (invoke A operation).operations = A.operations ++ [operation] := by
  simp [State.operations, Exclusive.invoke]

/-- A received request is answered with a valid record only, and it has not signed one. -/
theorem receive_cases (ctx : IssuanceContext) (request : IssuanceRequest) {state : MemoryState}
    (hk : MarksKept state) (now : Rat) :
    (∀ record now' read, receive P ctx request state now = .answered record now' read →
      StoredValid read record.jwt now') ∧
    ∀ trustMarkType subject jwt now' call,
      receive P ctx request state now ≠ .committing trustMarkType subject jwt now' call := by
  unfold receive
  split
  · simp
  · simp
  · rename_i trustMarkType subject _
    cases hget : state.getValid trustMarkType subject now with
    | error e => simp
    | ok existing =>
      cases existing with
      | none => simp
      | some existing =>
        refine ⟨fun record now' read h => ?_, by simp⟩
        obtain ⟨rfl, rfl, rfl⟩ := Issuance.answered.inj h
        obtain ⟨hstored, -, -, hvalid⟩ := getValid_some hk hget
        exact ⟨existing, hstored, hvalid⟩

/-- What is among the requests after one of them has changed. -/
theorem mem_requests_set {requests : List Issuance} {i : Nat} {request other : Issuance}
    (h : other ∈ requests.set i request) : other = request ∨ other ∈ requests :=
  (List.mem_or_eq_of_mem_set h).symm

/-- A request that is not the changed one stays. -/
theorem mem_set_of_mem {requests : List Issuance} {i : Nat} {old new other : Issuance}
    (hold : requests[i]? = some old) (h : other ∈ requests) (hne : other ≠ old) :
    other ∈ requests.set i new := by
  obtain ⟨j, hj⟩ := List.mem_iff_getElem?.mp h
  refine List.mem_of_getElem? (i := j) ?_
  rw [List.getElem?_set_ne, hj]
  rintro rfl
  rw [hold] at hj
  exact hne (Option.some.inj hj).symm

theorem Linked.start (now : Rat) : Linked ttl (IssuanceState.start now) [] where
  reach := .init rfl
  operations := rfl
  committing := by simp [IssuanceState.start]
  issued := by simp
  answered := by simp [IssuanceState.start]

/-- Every step keeps requests and operations together. -/
theorem Linked.step (h : Linked ttl S calls) (hs : IssuanceStep P ttl S S') :
    ∃ calls', Linked ttl S' calls' := by
  cases hs with
  | tick hnow => exact ⟨calls, h.reach, h.operations, h.committing, h.issued, h.answered⟩
  | @request ctx request httl =>
    obtain ⟨hanswered, hcommitting⟩ := receive_cases (P := P) ctx request h.kept S.now
    refine ⟨calls, h.reach, h.operations, ?_, ?_, ?_⟩
    · intro trustMarkType subject jwt now call hmem
      rcases List.mem_append.mp hmem with hmem | hmem
      · exact h.committing _ _ _ _ _ hmem
      · exact absurd (List.mem_singleton.mp hmem).symm (hcommitting _ _ _ _ _)
    · intro trustMarkType subject jwt now call hcall
      exact List.mem_append_left _ (h.issued _ _ _ _ _ hcall)
    · intro record now read hmem
      rcases List.mem_append.mp hmem with hmem | hmem
      · exact h.answered _ _ _ hmem
      · exact hanswered _ _ _ (List.mem_singleton.mp hmem).symm
  | @sign i trustMarkType subject now jwt hsigning =>
    -- the transaction is called as soon as the mark is signed
    refine ⟨calls ++ [.issuance trustMarkType subject jwt now],
      h.reach.step (.invoke _ (markCall_operation _)), ?_, ?_, ?_, ?_⟩
    · simp only [commitMark]
      rw [invoke_operations, h.operations]
      simp
    · intro t s j n call hmem
      rcases mem_requests_set hmem with heq | hmem
      · obtain ⟨rfl, rfl, rfl, rfl, rfl⟩ := Issuance.committing.inj heq
        rw [h.length]
        simp
      · have hcall := h.committing _ _ _ _ _ hmem
        rw [List.getElem?_append_left (List.getElem?_eq_some_iff.mp hcall).1]
        exact hcall
    · intro t s j n call hcall
      by_cases hlt : call < calls.length
      · rw [List.getElem?_append_left hlt] at hcall
        exact mem_set_of_mem hsigning (h.issued _ _ _ _ _ hcall) (by simp)
      · -- the issuance that has just been called
        rw [List.getElem?_append_right (Nat.le_of_not_lt hlt)] at hcall
        have hi : call = calls.length := by
          by_contra hne
          rw [List.getElem?_eq_none (by simp; omega)] at hcall
          simp at hcall
        rw [hi, Nat.sub_self] at hcall
        obtain ⟨rfl, rfl, rfl, rfl⟩ := MarkCall.issuance.inj (Option.some.inj hcall)
        rw [hi, ← h.length]
        exact List.mem_of_getElem?
          (List.getElem?_set_self (List.getElem?_eq_some_iff.mp hsigning).1)
    · intro record now' read hmem
      rcases mem_requests_set hmem with heq | hmem
      · simp at heq
      · exact h.answered _ _ _ hmem
  | @signFails i trustMarkType subject now hsigning =>
    refine ⟨calls, h.reach, h.operations, ?_, ?_, ?_⟩
    · intro t s j n call hmem
      rcases mem_requests_set hmem with heq | hmem
      · simp at heq
      · exact h.committing _ _ _ _ _ hmem
    · intro t s j n call hcall
      exact mem_set_of_mem hsigning (h.issued _ _ _ _ _ hcall) (by simp)
    · intro record now' read hmem
      rcases mem_requests_set hmem with heq | hmem
      · simp at heq
      · exact h.answered _ _ _ hmem
  | revoke trustMarkType subject revokedAt =>
    refine ⟨calls ++ [.revocation trustMarkType subject revokedAt],
      h.reach.step (.invoke _ (markCall_operation _)), ?_, ?_, ?_, h.answered⟩
    · rw [invoke_operations, h.operations]
      simp
    · intro t s j n call hmem
      have hcall := h.committing _ _ _ _ _ hmem
      rw [List.getElem?_append_left (List.getElem?_eq_some_iff.mp hcall).1]
      exact hcall
    · intro t s j n call hcall
      by_cases hlt : call < calls.length
      · rw [List.getElem?_append_left hlt] at hcall
        exact h.issued _ _ _ _ _ hcall
      · rw [List.getElem?_append_right (Nat.le_of_not_lt hlt)] at hcall
        have := List.mem_of_getElem? hcall
        simp at this
  | @adapter A i ha =>
    refine ⟨calls, h.reach.step (.advance i ha), ?_, h.committing, h.issued, h.answered⟩
    rw [show A.operations = S.adapter.operations from operations_advance ha]
    exact h.operations

theorem linked_of_reach (h : (trustMarkIssuance P ttl).Reach S) : ∃ calls, Linked ttl S calls := by
  refine h.invariant (I := fun S : IssuanceState => ∃ calls, Linked ttl S calls) ?_ ?_
  · rintro S ⟨now, rfl⟩
    exact ⟨[], .start now⟩
  · rintro S S' ⟨calls, hlinked⟩ hs
    exact hlinked.step hs

/-- In every run the promises of issuance hold exactly when every mark is freshly signed. -/
theorem issuanceHolds_iff (httl : 0 < ttl) (h : (trustMarkIssuance P ttl).Reach S) :
    IssuanceHolds S ↔ FreshlySigned S := by
  obtain ⟨calls, hlinked⟩ := linked_of_reach h
  have hserial := (memoryStorage_serializable hlinked.reach).1
  -- a committed record is what the issuance returns after the operations before it
  have hcommit : ∀ trustMarkType subject jwt now call record,
      .committing trustMarkType subject jwt now call ∈ S.requests → Committed S call record →
        (StoredValid (stateAt S (call + 1)) record.jwt now ↔
          (NoneValid (stateAt S call) trustMarkType subject now →
            ∀ r, (marksOf (stateAt S call)).get? jwt = some r → isValidTrustMark r now = true)) := by
    intro trustMarkType subject jwt now call record hmem ⟨c, hc, hresult⟩
    have hcalled := hlinked.committing _ _ _ _ _ hmem
    have hop : c.operation = (MarkCall.issuance trustMarkType subject jwt now).operation ttl := by
      have hget : S.adapter.operations[call]? = some c.operation := by simp [State.operations, hc]
      rw [hlinked.operations, List.getElem?_map, hcalled] at hget
      exact (Option.some.inj hget).symm
    have hafter : stateAt S (call + 1) =
        (((MarkCall.issuance trustMarkType subject jwt now).operation ttl).run (stateAt S call)).2 := by
      rw [hlinked.stateAt_eq, hlinked.stateAt_eq, List.take_add_one, hcalled, Option.toList_some,
        afterCalls_concat]
    have hresult' := hserial.results call c _ hc hresult
    rw [resultAfter, hop] at hresult'
    rw [hafter]
    refine issuance_stored_iff ?_ httl (Prod.ext hresult'.symm rfl)
    rw [hlinked.stateAt_eq]
    exact marksKept_afterCalls _
  constructor
  · intro hold trustMarkType subject jwt now call record hmem hdone
    exact (hcommit _ _ _ _ _ _ hmem hdone).mp (hold.committed _ _ _ _ _ _ hmem hdone)
  · intro hfresh
    refine ⟨hlinked.answered, ?_, ?_, ?_⟩
    · intro trustMarkType subject jwt now call record hmem hdone
      exact (hcommit _ _ _ _ _ _ hmem hdone).mpr (hfresh _ _ _ _ _ _ hmem hdone)
    · intro k m jwt hkm hrevoked
      rw [hlinked.stateAt_eq] at hrevoked ⊢
      exact revoked_afterCalls hkm hrevoked
    · intro k
      rw [hlinked.stateAt_eq]
      refine (uniqueAbove_afterCalls _).mono ?_
      rintro t ⟨call, hmem, ht⟩
      cases call with
      | revocation _ _ _ => simp [MarkCall.time?] at ht
      | issuance trustMarkType subject jwt now =>
        obtain rfl := Option.some.inj ht
        obtain ⟨i, hi⟩ := List.mem_iff_getElem?.mp hmem
        have hik : i < k := by
          by_contra hle
          rw [List.getElem?_take_eq_none (by omega)] at hi
          simp at hi
        rw [List.getElem?_take_of_lt hik] at hi
        exact ⟨trustMarkType, subject, jwt, i, hlinked.issued _ _ _ _ _ hi, hik⟩

end Runs

/-! ## A run -/

/-- A choice of the next step, but for a failing signer. -/
inductive IssuanceMove where
  | request (request : IssuanceRequest)
  | sign (i : Nat) (jwt : String)
  | revoke (trustMarkType subject : String) (revokedAt : Rat)
  | adapter (i : Nat)

/-- The state that a choice leads to; one that is not possible changes nothing. -/
def IssuanceMove.apply (P : Platform) (ctx : IssuanceContext) (S : IssuanceState) :
    IssuanceMove → IssuanceState
  | .request r => { S with requests := S.requests ++ [receive P ctx r S.adapter.shared S.now] }
  | .sign i jwt =>
    match S.requests[i]? with
    | some (.signing trustMarkType subject now) =>
      commitMark ctx.ttl S i trustMarkType subject jwt now
    | _ => S
  | .revoke trustMarkType subject revokedAt =>
    { S with
      adapter := invoke S.adapter
        ((MarkCall.revocation trustMarkType subject revokedAt).operation ctx.ttl) }
  | .adapter i =>
    match advance S.adapter i with
    | some A => { S with adapter := A }
    | none => S

/-- A run of requests to one handler, from an adapter without records on. -/
def issuanceRun (P : Platform) (ctx : IssuanceContext) (start : Rat) (moves : List IssuanceMove) :
    IssuanceState :=
  moves.foldl (IssuanceMove.apply P ctx) (.start start)

theorem reach_apply {P : Platform} {ctx : IssuanceContext} {S : IssuanceState}
    (h : (trustMarkIssuance P ctx.ttl).Reach S) (move : IssuanceMove) :
    (trustMarkIssuance P ctx.ttl).Reach (move.apply P ctx S) := by
  cases move with
  | request r => exact h.step (.request r rfl)
  | sign i jwt =>
    simp only [IssuanceMove.apply]
    split
    · rename_i hsigning
      exact h.step (.sign jwt hsigning)
    · exact h
  | revoke trustMarkType subject revokedAt => exact h.step (.revoke _ _ _)
  | adapter i =>
    simp only [IssuanceMove.apply]
    split
    · rename_i hA
      exact h.step (.adapter i hA)
    · exact h

theorem reach_issuanceRun (P : Platform) (ctx : IssuanceContext) (start : Rat)
    (moves : List IssuanceMove) :
    (trustMarkIssuance P ctx.ttl).Reach (issuanceRun P ctx start moves) := by
  unfold issuanceRun
  induction moves using List.reverseRecOn with
  | nil => exact .init ⟨start, rfl⟩
  | append_singleton moves move ih =>
    rw [List.foldl_concat]
    exact reach_apply ih move

def markIssuer : IssuanceContext where
  entityId := "https://ta.example"

def markRequest : IssuanceRequest where
  trustMarkType := some "https://ta.example/mark"
  sub := some "https://rp.example"

/-- A mark is issued. -/
def issuedOnce : List IssuanceMove :=
  [.request markRequest, .sign 0 "mark"] ++ List.replicate 6 (.adapter 0)

/-- Then it is revoked, and requested again within the second; the signer is deterministic. -/
def issuedAgain : List IssuanceMove :=
  issuedOnce ++
    [.revoke "https://ta.example/mark" "https://rp.example" 1000, .adapter 1, .adapter 1,
      .request markRequest, .sign 1 "mark"] ++ List.replicate 6 (.adapter 2)

/-- The state after the moves of a run. -/
def exampleIssuance (moves : List IssuanceMove) : IssuanceState :=
  issuanceRun (tablePlatform []) markIssuer 1000 moves

/-- Or it is revoked, and the second request is signed with other text. -/
def issuedAnew : List IssuanceMove :=
  issuedOnce ++
    [.revoke "https://ta.example/mark" "https://rp.example" 1000, .adapter 1, .adapter 1,
      .request markRequest, .sign 1 "second mark"] ++ List.replicate 6 (.adapter 2)

theorem exampleIssuance_requests : (exampleIssuance issuedAnew).requests =
    [.committing "https://ta.example/mark" "https://rp.example" "mark" 1000 0,
      .committing "https://ta.example/mark" "https://rp.example" "second mark" 1000 2] := by
  decide +kernel

theorem exampleIssuance_jwts :
    (marksOf (stateAt (exampleIssuance issuedAnew) 0)).get? "mark" = none ∧
      (marksOf (stateAt (exampleIssuance issuedAnew) 2)).get? "second mark" = none := by
  decide +kernel

/-- A mark is issued, revoked and issued anew. -/
theorem issuanceHolds_anew :
    ((exampleIssuance issuedAnew).adapter.calls.map fun c => c.stage.result?.isSome) =
        [true, true, true] ∧
      IssuanceHolds (exampleIssuance issuedAnew) := by
  refine ⟨by decide +kernel, ?_⟩
  refine (issuanceHolds_iff (by decide +kernel)
    (reach_issuanceRun (tablePlatform []) markIssuer 1000 issuedAnew)).mpr ?_
  intro trustMarkType subject jwt now call record hmem _ _ r hr
  -- neither JWT is stored before the operation that stores it
  rw [← exampleIssuance, exampleIssuance_requests] at hmem
  rw [← exampleIssuance] at hr
  rcases List.mem_pair.mp hmem with hfirst | hsecond
  · obtain ⟨rfl, rfl, rfl, rfl, rfl⟩ := Issuance.committing.inj hfirst
    rw [exampleIssuance_jwts.1] at hr
    exact absurd hr (by simp)
  · obtain ⟨rfl, rfl, rfl, rfl, rfl⟩ := Issuance.committing.inj hsecond
    rw [exampleIssuance_jwts.2] at hr
    exact absurd hr (by simp)

/-- The transaction of the second request finds no valid mark, its mark is under the JWT of the
revoked record, and it returns that JWT. -/
theorem revoked_mark_returned :
    (trustMarkIssuance (tablePlatform []) defaultDelegationTtlSeconds).Reach
        (exampleIssuance issuedAgain) ∧
      ¬ IssuanceHolds (exampleIssuance issuedAgain) := by
  refine ⟨reach_issuanceRun (tablePlatform []) markIssuer 1000 issuedAgain, fun hold => ?_⟩
  have hrequest : (.committing "https://ta.example/mark" "https://rp.example" "mark" 1000 2) ∈
      (exampleIssuance issuedAgain).requests := by decide +kernel
  have hresult : ((exampleIssuance issuedAgain).adapter.calls[2]?.bind fun c => c.stage.result?) =
      some (.ok (some (candidateMark defaultDelegationTtlSeconds "https://ta.example/mark"
        "https://rp.example" "mark" 1000))) := by decide +kernel
  obtain ⟨c, hc, hresult⟩ := Option.bind_eq_some_iff.mp hresult
  obtain ⟨record, hget, hvalid⟩ := hold.committed _ _ _ _ _ _ hrequest ⟨c, hc, hresult⟩
  have hstored : ((marksOf (stateAt (exampleIssuance issuedAgain) 3)).get? "mark").map
      (·.active) = some false := by decide +kernel
  rw [show (marksOf (stateAt (exampleIssuance issuedAgain) 3)).get? "mark" = some record from hget]
    at hstored
  simp only [Option.map_some, Option.some.injEq] at hstored
  simp [isValidTrustMark, hstored] at hvalid

end OidFed
