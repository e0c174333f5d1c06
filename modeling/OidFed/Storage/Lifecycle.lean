import OidFed.Storage.Adapter
import OidFed.Storage.Canonical

/-!
# The lifecycle of subordinates (`authority/src/subordinate-lifecycle.ts`)

`registerSubordinate`, `updateSubordinate` and `revokeSubordinate` change a record and its history
in one transaction of the adapter.

* `sanitizeSubordinateMetadata`, `updateEvents`: what a call stores and which events it records.
* `LifecycleCall.operation`: a call as an operation of the adapter. `register_cases`,
  `update_cases`, `revoke_cases` say all that each can do.
* `Recorded`: registrations and revocations alternate, updates fall between them, and the record is
  there exactly when the last of them is a registration.
* `lifecycle_recorded`: every run keeps `Recorded` for every subject, and an update that succeeds
  appends one event for each aspect that it changes, and no other.
-/

namespace OidFed

open Js Exclusive

/-! ## Sanitized metadata (`authority/src/utils/subordinate-statement-shape.ts`) -/

/-- The members that are copied into a new object. Under `__proto__` a value would become its
prototype, and no member. -/
def copiedMembers {α : Type} (members : List (String × α)) : List (String × α) :=
  members.filter fun p => p.1 != "__proto__"

/-- What is kept of a member of the metadata. -/
def sanitizeClaims (entityType : String) (claims : Json) : Option Json :=
  match entityType == "federation_entity", claims with
  | true, .obj members =>
    let filtered := (copiedMembers members).filter fun p => !isFederationEntityOperationalField p.1
    if filtered.isEmpty then none else some (.obj filtered)
  | _, claims => some claims

def sanitizeSubordinateMetadata (metadata : Option Json) : Option Json :=
  match metadata with
  | some (.obj members) =>
    let result := (copiedMembers members).filterMap fun p =>
      (sanitizeClaims p.1 p.2).map fun claims => (p.1, claims)
    if result.isEmpty then none else some (.obj result)
  | _ => none

/-- The object that sanitized metadata inherits from, if it is not the usual one. -/
def sanitizedPrototype (metadata : Option Json) : Option Json :=
  metadata.bind fun metadata => metadata.get? "__proto__"

/-! ## The callbacks of the transactions -/

namespace SubordinateEventType

def registration : String := "registration"

def revocation : String := "revocation"

def metadataUpdate : String := "metadata_update"

def metadataPolicyUpdate : String := "metadata_policy_update"

def jwksUpdate : String := "jwks_update"

end SubordinateEventType

/-- What the lifecycle reads of its context. -/
structure LifecycleContext where
  entityId : String
  subordinateEvents : Bool

section Callbacks

variable (numberText : Rat → String) (ctx : LifecycleContext)

def requireTransactionEvents : Transaction Unit :=
  txRead fun draft =>
    if ctx.subordinateEvents && draft.subordinateEvents.isNone then
      .error (.error "Event-enabled storage requires transaction-bound subordinateEvents")
    else .ok ()

def appendLifecycleEvents (subject : String) (events : List SubordinateEvent) (now : Rat) :
    Transaction Unit :=
  if ctx.subordinateEvents then txMutate (.append ctx.entityId subject events) now else pure ()

/-- The transaction of `registerSubordinate`. The record is checked as it has been sanitized. -/
def registerCallback (record : SubordinateRecord) (iat : Rat) : Transaction Unit := do
  requireTransactionEvents ctx
  let metadata := sanitizeSubordinateMetadata record.metadata
  txRead fun _ => validateSubordinateRecord metadata (sanitizedPrototype record.metadata)
  txMutate (.add { record with metadata, createdAt := iat, updatedAt := iat }) iat
  appendLifecycleEvents ctx record.entityId [⟨iat, SubordinateEventType.registration⟩] iat

/-- The kinds of the events of an update, by the record before and after it. -/
def updateEvents (before after : SubordinateRecord) : Except StorageError (List String) := do
  let metadata := canonical numberText (sanitizeSubordinateMetadata before.metadata) !=
    canonical numberText (sanitizeSubordinateMetadata after.metadata)
  let policy := canonical numberText before.metadataPolicy !=
    canonical numberText after.metadataPolicy
  let jwks := (← publicKeys numberText before) != (← publicKeys numberText after)
  return (if metadata then [SubordinateEventType.metadataUpdate] else []) ++
    (if policy then [SubordinateEventType.metadataPolicyUpdate] else []) ++
    (if jwks then [SubordinateEventType.jwksUpdate] else [])

def sanitizeUpdates (updates : SubordinateRecordUpdate) : SubordinateRecordUpdate :=
  { updates with metadata := updates.metadata.map sanitizeSubordinateMetadata }

/-- The end of an update: the events of what has changed. -/
def recordChanges (subject : String) (before after : SubordinateRecord) (now iat : Rat) :
    Transaction Unit := do
  let eventTypes ← txRead fun _ => updateEvents numberText before after
  if eventTypes.isEmpty then pure ()
  else appendLifecycleEvents ctx subject (eventTypes.map fun event => ⟨iat, event⟩) now

/-- The transaction of `updateSubordinate`, with the readings of the adapter's clock and its own. -/
def updateCallback (subject : String) (updates : SubordinateRecordUpdate) (now iat : Rat) :
    Transaction Unit := do
  requireTransactionEvents ctx
  let before ← txRead fun draft => .ok (draft.getSubordinate subject)
  match before with
  | none => throw (.error s!"Subordinate '{subject}' not found")
  | some before => do
    txMutate (.update subject (sanitizeUpdates updates)) now
    let after ← txRead fun draft => .ok (draft.getSubordinate subject)
    match after with
    | none => throw (.error s!"Subordinate '{subject}' disappeared during update")
    | some after => recordChanges numberText ctx subject before after now iat

/-- The transaction of `revokeSubordinate`. -/
def revokeCallback (subject : String) (iat : Rat) : Transaction Unit := do
  requireTransactionEvents ctx
  txMutate (.remove subject) iat
  appendLifecycleEvents ctx subject [⟨iat, SubordinateEventType.revocation⟩] iat

end Callbacks

/-- A call of the lifecycle, with the readings of the clocks that it takes. -/
inductive LifecycleCall where
  | register (record : SubordinateRecord) (iat : Rat)
  | update (subject : String) (updates : SubordinateRecordUpdate) (now iat : Rat)
  | revoke (subject : String) (iat : Rat)

def LifecycleCall.operation (numberText : Rat → String) (ctx : LifecycleContext) :
    LifecycleCall → StorageOperation Unit
  | register record iat => transactionOperation (registerCallback ctx record iat)
  | update subject updates now iat =>
    transactionOperation (updateCallback numberText ctx subject updates now iat)
  | revoke subject iat => transactionOperation (revokeCallback ctx subject iat)

/-! ## What the calls do -/

/-- A change of one subject's record, which appends to its history. -/
structure Effect (issuer : String) (state state' : MemoryState) (subject : String)
    (record : Option SubordinateRecord) (events : List SubordinateEvent) : Prop where
  enabled : state'.subordinateEvents.isSome
  records : ∀ s, state'.getSubordinate s = if s = subject then record else state.getSubordinate s
  histories : ∀ s, state'.listEvents issuer s =
    state.listEvents issuer s ++ if s = subject then events else []

section Effects

variable {issuer subject : String} {state : MemoryState}

theorem appendEvents_histories (henabled : state.subordinateEvents.isSome)
    (events : List SubordinateEvent) : ∃ state',
      state.appendEvents issuer subject events = (.ok (), state') ∧
        state'.subordinates = state.subordinates ∧ state'.subordinateEvents.isSome ∧
        ∀ s, state'.listEvents issuer s =
          state.listEvents issuer s ++ if s = subject then events else [] := by
  obtain ⟨history, hhistory⟩ := Option.isSome_iff_exists.mp henabled
  let subjects := (history.get? issuer).getD .empty
  have happend : state.appendEvents issuer subject events =
      (.ok (), { state with subordinateEvents := some (history.set issuer
        (subjects.set subject ((subjects.get? subject).getD [] ++ events))) }) := by
    simp only [MemoryState.appendEvents, hhistory]
    rfl
  refine ⟨_, happend, rfl, rfl, fun s => ?_⟩
  simp only [MemoryState.listEvents, hhistory, Option.bind_some, Dict.get?_set_self]
  have hsubjects : ((history.get? issuer).bind fun subjects => subjects.get? s) =
      subjects.get? s := by
    cases hget : history.get? issuer <;> simp [subjects, hget]
  rw [hsubjects]
  by_cases hs : s = subject
  · subst hs
    rw [Dict.get?_set_self, if_pos rfl, Option.getD_some]
  · rw [Dict.get?_set_ne _ _ hs, if_neg hs, List.append_nil]

/-- A change of a record, and then of its history. -/
theorem effect_of_append (issuer : String) (events : List SubordinateEvent)
    {record : Option SubordinateRecord} {changed : MemoryState}
    (henabled : state.subordinateEvents.isSome)
    (hevents : changed.subordinateEvents = state.subordinateEvents)
    (hrecords : ∀ s, changed.getSubordinate s =
      if s = subject then record else state.getSubordinate s) :
    ∃ state', changed.appendEvents issuer subject events = (.ok (), state') ∧
      Effect issuer state state' subject record events := by
  have hchanged : changed.subordinateEvents.isSome := by rw [hevents]; exact henabled
  obtain ⟨state', happend, hsub, henabled', hhist⟩ := appendEvents_histories hchanged events
  refine ⟨state', happend, henabled', fun s => ?_, fun s => ?_⟩
  · rw [MemoryState.getSubordinate, hsub]
    exact hrecords s
  · rw [hhist s, MemoryState.listEvents, hevents]
    rfl

end Effects

section Cases

variable {numberText : Rat → String} {ctx : LifecycleContext} {state : MemoryState}

/-- A callback that throws leaves the state as it was. -/
theorem transaction_failed {callback : Transaction Unit} {e : StorageError}
    (h : ∃ draft, Script.runExcept callback state = (.error e, draft)) :
    (transactionOperation callback).run state = (.error e, state) := by
  obtain ⟨draft, h⟩ := h
  rw [transactionOperation_run, h]

theorem transaction_done {callback : Transaction Unit} {draft : MemoryState}
    (h : Script.runExcept callback state = (.ok (), draft)) :
    (transactionOperation callback).run state = (.ok (some ()), draft) := by
  rw [transactionOperation_run, h]

theorem txMutate_cases (m : Mutation) (now : Rat) (draft : MemoryState) :
    (∃ e draft', Script.runExcept (txMutate m now) draft = (.error e, draft')) ∨
      ∃ draft', m.apply now draft = (.ok (), draft') ∧
        Script.runExcept (txMutate m now) draft = (.ok (), draft') := by
  cases hcheck : m.check with
  | error e =>
    refine .inl ⟨e, draft, ?_⟩
    simp [Script.runExcept, txMutate, hcheck, ExceptT.run, ExceptT.mk]
  | ok _ =>
    rw [runExcept_txMutate now hcheck]
    cases happly : m.apply now draft with
    | mk r draft' =>
      cases r with
      | error e => exact .inl ⟨e, draft', rfl⟩
      | ok _ => exact .inr ⟨draft', rfl, rfl⟩

theorem run_requireTransactionEvents (henabled : state.subordinateEvents.isSome) :
    Script.runExcept (requireTransactionEvents ctx) state = (.ok (), state) := by
  have hnone : state.subordinateEvents.isNone = false := by simpa using henabled
  rw [requireTransactionEvents, runExcept_txRead, hnone, Bool.and_false]
  rfl

theorem run_appendLifecycleEvents (hctx : ctx.subordinateEvents = true) {subject : String}
    {events : List SubordinateEvent} {now : Rat} {state' : MemoryState}
    (h : state.appendEvents ctx.entityId subject events = (.ok (), state')) :
    Script.runExcept (appendLifecycleEvents ctx subject events now) state = (.ok (), state') := by
  rw [appendLifecycleEvents, if_pos hctx, runExcept_txMutate now rfl]
  exact h

variable (numberText)

/-- A registration fails, or stores a record for a subject that has none. -/
theorem register_cases (hctx : ctx.subordinateEvents = true)
    (henabled : state.subordinateEvents.isSome) (record : SubordinateRecord) (iat : Rat) :
    (∃ e, ((LifecycleCall.register record iat).operation numberText ctx).run state =
        (.error e, state)) ∨
      ∃ stored state', ((LifecycleCall.register record iat).operation numberText ctx).run state =
          (.ok (some ()), state') ∧ state.getSubordinate record.entityId = none ∧
        Effect ctx.entityId state state' record.entityId (some stored)
          [⟨iat, SubordinateEventType.registration⟩] := by
  let stored : SubordinateRecord := { record with
    metadata := sanitizeSubordinateMetadata record.metadata, createdAt := iat, updatedAt := iat }
  have hrun : Script.runExcept (registerCallback ctx record iat) state =
      match validateSubordinateRecord (sanitizeSubordinateMetadata record.metadata)
        (sanitizedPrototype record.metadata) with
      | .error e => (.error e, state)
      | .ok _ => Script.runExcept (do
          txMutate (.add stored) iat
          appendLifecycleEvents ctx record.entityId [⟨iat, SubordinateEventType.registration⟩] iat)
          state := by
    rw [registerCallback, Script.runExcept_bind, run_requireTransactionEvents henabled]
    simp only
    rw [Script.runExcept_bind, runExcept_txRead]
    split <;> simp_all [stored]
  cases hvalid : validateSubordinateRecord (sanitizeSubordinateMetadata record.metadata)
      (sanitizedPrototype record.metadata) with
  | error e => exact .inl ⟨e, transaction_failed ⟨state, by rw [hrun, hvalid]⟩⟩
  | ok _ =>
    rw [hvalid] at hrun
    rcases txMutate_cases (.add stored) iat state with ⟨e, draft, hfail⟩ | ⟨draft, hadd, hmut⟩
    · refine .inl ⟨e, transaction_failed ⟨draft, ?_⟩⟩
      rw [hrun, Script.runExcept_bind, hfail]
    · rw [Mutation.apply, MemoryState.addSubordinate] at hadd
      split at hadd
      · simp at hadd
      · rename_i habsent
        obtain rfl := (Prod.mk.inj hadd).2
        have hnone : state.getSubordinate record.entityId = none :=
          Option.not_isSome_iff_eq_none.mp habsent
        have hrecords : ∀ s, MemoryState.getSubordinate
            { state with subordinates := state.subordinates.set stored.entityId stored } s =
              if s = record.entityId then some stored else state.getSubordinate s :=
          fun s => Dict.get?_set _ _ _ _
        obtain ⟨state', happend, heffect⟩ := effect_of_append ctx.entityId
          [⟨iat, SubordinateEventType.registration⟩] henabled (by rfl) hrecords
        refine .inr ⟨stored, state', transaction_done ?_, hnone, heffect⟩
        rw [hrun, Script.runExcept_bind, hmut]
        exact run_appendLifecycleEvents hctx happend

/-- A revocation fails, or removes the record of a subject. -/
theorem revoke_cases (hctx : ctx.subordinateEvents = true)
    (henabled : state.subordinateEvents.isSome) (subject : String) (iat : Rat) :
    (∃ e, ((LifecycleCall.revoke subject iat).operation numberText ctx).run state =
        (.error e, state)) ∨
      ∃ state', ((LifecycleCall.revoke subject iat).operation numberText ctx).run state =
          (.ok (some ()), state') ∧ (state.getSubordinate subject).isSome ∧
        Effect ctx.entityId state state' subject none
          [⟨iat, SubordinateEventType.revocation⟩] := by
  have hrun : Script.runExcept (revokeCallback ctx subject iat) state =
      Script.runExcept (do
        txMutate (.remove subject) iat
        appendLifecycleEvents ctx subject [⟨iat, SubordinateEventType.revocation⟩] iat) state := by
    rw [revokeCallback, Script.runExcept_bind, run_requireTransactionEvents henabled]
  rcases txMutate_cases (.remove subject) iat state with ⟨e, draft, hfail⟩ | ⟨draft, hremove, hmut⟩
  · refine .inl ⟨e, transaction_failed ⟨draft, ?_⟩⟩
    rw [hrun, Script.runExcept_bind, hfail]
  · rw [Mutation.apply, MemoryState.removeSubordinate] at hremove
    split at hremove
    · rename_i hpresent
      obtain rfl := (Prod.mk.inj hremove).2
      have hrecords : ∀ s, MemoryState.getSubordinate
          { state with subordinates := state.subordinates.erase subject } s =
            if s = subject then none else state.getSubordinate s :=
        fun s => Dict.get?_erase _ _ _
      obtain ⟨state', happend, heffect⟩ := effect_of_append ctx.entityId
        [⟨iat, SubordinateEventType.revocation⟩] henabled (by rfl) hrecords
      refine .inr ⟨state', transaction_done ?_, hpresent, heffect⟩
      rw [hrun, Script.runExcept_bind, hmut]
      exact run_appendLifecycleEvents hctx happend
    · simp at hremove

theorem recordChanges_cases (hctx : ctx.subordinateEvents = true) {changed : MemoryState}
    {subject : String} {before after : SubordinateRecord} (now iat : Rat)
    (henabled : state.subordinateEvents.isSome)
    (hevents : changed.subordinateEvents = state.subordinateEvents)
    (hrecords : ∀ s, changed.getSubordinate s =
      if s = subject then some after else state.getSubordinate s) :
    (∃ e, updateEvents numberText before after = .error e ∧
      Script.runExcept (recordChanges numberText ctx subject before after now iat) changed =
        (.error e, changed)) ∨
      ∃ eventTypes state', updateEvents numberText before after = .ok eventTypes ∧
        Script.runExcept (recordChanges numberText ctx subject before after now iat) changed =
          (.ok (), state') ∧
        Effect ctx.entityId state state' subject (some after)
          (eventTypes.map fun event => ⟨iat, event⟩) := by
  rw [recordChanges, Script.runExcept_bind, runExcept_txRead]
  cases htypes : updateEvents numberText before after with
  | error e => exact .inl ⟨e, rfl, rfl⟩
  | ok eventTypes =>
    right
    simp only
    by_cases hempty : eventTypes = []
    · subst hempty
      refine ⟨[], changed, rfl, rfl, by rw [hevents]; exact henabled, hrecords, fun s => ?_⟩
      rw [MemoryState.listEvents, hevents, List.map_nil, ite_self, List.append_nil]
      rfl
    · obtain ⟨state', happend, heffect⟩ := effect_of_append ctx.entityId
        (eventTypes.map fun event => ⟨iat, event⟩) henabled hevents hrecords
      refine ⟨eventTypes, state', rfl, ?_, heffect⟩
      rw [if_neg (by simpa using hempty)]
      exact run_appendLifecycleEvents hctx happend

/-- An update fails, or changes the record of a subject and records what has changed. -/
theorem update_cases (hctx : ctx.subordinateEvents = true)
    (henabled : state.subordinateEvents.isSome) (subject : String)
    (updates : SubordinateRecordUpdate) (now iat : Rat) :
    (∃ e, ((LifecycleCall.update subject updates now iat).operation numberText ctx).run state =
        (.error e, state)) ∨
      ∃ before after eventTypes state',
        ((LifecycleCall.update subject updates now iat).operation numberText ctx).run state =
          (.ok (some ()), state') ∧ state.getSubordinate subject = some before ∧
        updateEvents numberText before after = .ok eventTypes ∧
        Effect ctx.entityId state state' subject (some after)
          (eventTypes.map fun event => ⟨iat, event⟩) := by
  -- the callback reads the record before it changes it
  have hrun : Script.runExcept (updateCallback numberText ctx subject updates now iat) state =
      match state.getSubordinate subject with
      | none => (.error (.error s!"Subordinate '{subject}' not found"), state)
      | some before => Script.runExcept (do
          txMutate (.update subject (sanitizeUpdates updates)) now
          let after ← txRead fun draft => .ok (draft.getSubordinate subject)
          match after with
          | none => throw (.error s!"Subordinate '{subject}' disappeared during update")
          | some after => recordChanges numberText ctx subject before after now iat) state := by
    rw [updateCallback, Script.runExcept_bind, run_requireTransactionEvents henabled]
    simp only
    rw [Script.runExcept_bind, runExcept_txRead]
    cases state.getSubordinate subject <;> rfl
  cases hbefore : state.getSubordinate subject with
  | none => exact .inl ⟨_, transaction_failed ⟨state, by rw [hrun, hbefore]⟩⟩
  | some before =>
    simp only [hbefore] at hrun
    rcases txMutate_cases (.update subject (sanitizeUpdates updates)) now state with
      ⟨e, draft, hfail⟩ | ⟨draft, hupdate, hmut⟩
    · refine .inl ⟨e, transaction_failed ⟨draft, ?_⟩⟩
      rw [hrun, Script.runExcept_bind, hfail]
    · -- the record is there after the update, since it was before
      have hget : state.subordinates.get? subject = some before := hbefore
      simp only [Mutation.apply, MemoryState.updateSubordinate, hget] at hupdate
      split at hupdate
      · simp at hupdate
      · obtain rfl := (Prod.mk.inj hupdate).2
        let after := updatedRecord before (sanitizeUpdates updates) now
        let changed : MemoryState :=
          { state with subordinates := state.subordinates.set subject after }
        have hrecords : ∀ s, changed.getSubordinate s =
            if s = subject then some after else state.getSubordinate s :=
          fun s => Dict.get?_set _ _ _ _
        have hafter : Script.runExcept (updateCallback numberText ctx subject updates now iat) state =
            Script.runExcept (recordChanges numberText ctx subject before after now iat) changed := by
          rw [hrun, Script.runExcept_bind, hmut]
          simp only
          rw [Script.runExcept_bind, runExcept_txRead]
          simp only
          rw [show changed.getSubordinate subject = some after by rw [hrecords, if_pos rfl]]
        rcases recordChanges_cases numberText hctx now iat henabled (by rfl) hrecords with
          ⟨e, -, hfail⟩ | ⟨eventTypes, state', htypes, hdone, heffect⟩
        · exact .inl ⟨e, transaction_failed ⟨changed, by rw [hafter, hfail]⟩⟩
        · exact .inr ⟨before, after, eventTypes, state', transaction_done (by rw [hafter, hdone]),
            rfl, htypes, heffect⟩

end Cases

/-! ## Histories -/

def isBoundary (event : String) : Bool :=
  event == SubordinateEventType.registration || event == SubordinateEventType.revocation

def updateEventTypes : List String :=
  [SubordinateEventType.metadataUpdate, SubordinateEventType.metadataPolicyUpdate,
    SubordinateEventType.jwksUpdate]

/-- The history of a subject and the presence of its record belong together. -/
structure Recorded (history : List String) (present : Bool) : Prop where
  /-- Registrations and revocations alternate. -/
  alternate : (history.filter isBoundary).IsChain (· ≠ ·)
  first : ∀ event ∈ (history.filter isBoundary).head?, event = SubordinateEventType.registration
  present_iff : present = true ↔
    (history.filter isBoundary).getLast? = some SubordinateEventType.registration
  /-- The last of them before an update is a registration. -/
  between : ∀ earlier event later, history = earlier ++ event :: later → event ∈ updateEventTypes →
    (earlier.filter isBoundary).getLast? = some SubordinateEventType.registration

theorem Recorded.empty : Recorded [] false where
  alternate := by simp
  first := by simp
  present_iff := by simp
  between := by simp

section Histories

variable {history : List String}

/-- An event that is appended is no update, or comes after a registration. -/
theorem Recorded.between_concat {present : Bool} (h : Recorded history present) {event : String}
    (hevent : event ∈ updateEventTypes → present = true) :
    ∀ earlier e later, history ++ [event] = earlier ++ e :: later → e ∈ updateEventTypes →
      (earlier.filter isBoundary).getLast? = some SubordinateEventType.registration := by
  intro earlier e later heq he
  rcases List.eq_nil_or_concat later with rfl | ⟨later, last, rfl⟩
  · obtain ⟨rfl, hlast⟩ := List.append_inj' heq rfl
    obtain rfl := List.singleton_inj.mp hlast
    exact h.present_iff.mp (hevent he)
  · rw [List.concat_eq_append, ← List.cons_append, ← List.append_assoc] at heq
    exact h.between earlier e later (List.append_inj' heq rfl).1 he

theorem Recorded.register (h : Recorded history false) :
    Recorded (history ++ [SubordinateEventType.registration]) true := by
  have hfilter : (history ++ [SubordinateEventType.registration]).filter isBoundary =
      history.filter isBoundary ++ [SubordinateEventType.registration] := by
    rw [List.filter_append]
    rfl
  refine ⟨?_, ?_, ?_, h.between_concat (by decide)⟩
  · rw [hfilter]
    refine h.alternate.append (by simp) ?_
    intro last hlast next hnext hsame
    obtain rfl := Option.some.inj hnext
    have hpresent := h.present_iff.mpr (hsame ▸ hlast)
    simp at hpresent
  · rw [hfilter]
    intro event hevent
    cases hboundaries : history.filter isBoundary with
    | nil =>
      rw [hboundaries] at hevent
      exact (Option.some.inj hevent).symm
    | cons b rest =>
      rw [hboundaries] at hevent
      exact h.first event (by rw [hboundaries]; exact hevent)
  · rw [hfilter]
    simp

theorem Recorded.revoke (h : Recorded history true) :
    Recorded (history ++ [SubordinateEventType.revocation]) false := by
  have hfilter : (history ++ [SubordinateEventType.revocation]).filter isBoundary =
      history.filter isBoundary ++ [SubordinateEventType.revocation] := by
    rw [List.filter_append]
    rfl
  have hlast := h.present_iff.mp rfl
  refine ⟨?_, ?_, ?_, h.between_concat (by decide)⟩
  · rw [hfilter]
    refine h.alternate.append (by simp) ?_
    intro last hlast' next hnext
    obtain rfl := Option.some.inj hnext
    obtain rfl := Option.some.inj (hlast.symm.trans hlast')
    decide
  · rw [hfilter]
    intro event hevent
    cases hboundaries : history.filter isBoundary with
    | nil =>
      rw [hboundaries] at hlast
      simp at hlast
    | cons b rest =>
      rw [hboundaries] at hevent
      exact h.first event (by rw [hboundaries]; exact hevent)
  · rw [hfilter]
    simp [SubordinateEventType.registration, SubordinateEventType.revocation]

theorem Recorded.update (h : Recorded history true) {events : List String}
    (hevents : ∀ event ∈ events, event ∈ updateEventTypes) : Recorded (history ++ events) true := by
  induction events using List.reverseRecOn with
  | nil => simpa using h
  | append_singleton events event ih =>
    have hbefore := ih fun e he => hevents e (List.mem_append_left _ he)
    have hevent : event ∈ updateEventTypes := hevents event (by simp)
    have hfilter : (history ++ (events ++ [event])).filter isBoundary =
        (history ++ events).filter isBoundary := by
      have hno : ∀ e ∈ updateEventTypes, isBoundary e = false := by decide
      rw [← List.append_assoc, List.filter_append, List.filter_cons_of_neg (by simp [hno event hevent]),
        List.filter_nil, List.append_nil]
    refine ⟨?_, ?_, ?_, ?_⟩
    · rw [hfilter]
      exact hbefore.alternate
    · rw [hfilter]
      exact hbefore.first
    · rw [hfilter]
      exact hbefore.present_iff
    · rw [← List.append_assoc]
      exact hbefore.between_concat fun _ => rfl

end Histories

/-! ## Runs -/

/-- The public keys of a record, up to the order of their members. -/
def publicKeyMultiset (record : SubordinateRecord) : Multiset Json :=
  ↑((((publicKeysOf record.jwks).toOption).getD []).map normal)

/-- The aspects that differ between two records, up to the order of members and of keys. -/
def changedAspects (before after : SubordinateRecord) : List String :=
  (if (sanitizeSubordinateMetadata before.metadata).map normal =
    (sanitizeSubordinateMetadata after.metadata).map normal then []
    else [SubordinateEventType.metadataUpdate]) ++
  (if before.metadataPolicy.map normal = after.metadataPolicy.map normal then []
    else [SubordinateEventType.metadataPolicyUpdate]) ++
  (if publicKeyMultiset before = publicKeyMultiset after then []
    else [SubordinateEventType.jwksUpdate])

theorem changedAspects_updates {before after : SubordinateRecord} :
    ∀ event ∈ changedAspects before after, event ∈ updateEventTypes := by
  have haspect : ∀ {p : Prop} [Decidable p] {event eventType : String},
      event ∈ (if p then [] else [eventType]) → event = eventType := by
    intro p _ event eventType h
    split at h
    · simp at h
    · exact List.mem_singleton.mp h
  intro event hevent
  rw [changedAspects, List.mem_append, List.mem_append] at hevent
  rcases hevent with (h | h) | h
  · rw [haspect h]
    decide
  · rw [haspect h]
    decide
  · rw [haspect h]
    decide

/-- The events of an update are those of the aspects that differ. -/
theorem updateEvents_eq {numberText : Rat → String} (hn : NumberTexts numberText)
    {before after : SubordinateRecord} {eventTypes : List String}
    (h : updateEvents numberText before after = .ok eventTypes) :
    eventTypes = changedAspects before after := by
  have haspect : ∀ {a b : List Char} {p : Prop} [Decidable p] (eventType : String),
      (a = b ↔ p) → (if (a != b) = true then [eventType] else []) =
        if p then [] else [eventType] := by
    intro a b p _ eventType hiff
    by_cases hp : p
    · rw [if_pos hp, if_neg (by simp [hiff.mpr hp])]
    · rw [if_neg hp, if_pos (by simpa using fun hab => hp (hiff.mp hab))]
  unfold updateEvents at h
  simp only [bind_eq_ok] at h
  obtain ⟨textBefore, hbefore, textAfter, hafter, h⟩ := h
  obtain ⟨keys, hkeys⟩ := publicKeysOf_of_publicKeys hbefore
  obtain ⟨keys', hkeys'⟩ := publicKeysOf_of_publicKeys hafter
  have hjwks : textBefore = textAfter ↔ publicKeyMultiset before = publicKeyMultiset after := by
    have htexts := publicKeys_eq_iff hn hkeys hkeys'
    rw [hbefore, hafter, Except.ok.injEq] at htexts
    rw [htexts, publicKeyMultiset, publicKeyMultiset, hkeys, hkeys', Multiset.coe_eq_coe]
    rfl
  rw [haspect _ (canonical_eq_iff hn), haspect _ (canonical_eq_iff hn), haspect _ hjwks] at h
  exact (Except.ok.inj h).symm

section Runs

variable {numberText : Rat → String} {ctx : LifecycleContext}

structure HistoriesKept (ctx : LifecycleContext) (state : MemoryState) : Prop where
  enabled : state.subordinateEvents.isSome
  recorded : ∀ subject, Recorded ((state.listEvents ctx.entityId subject).map (·.event))
    (state.getSubordinate subject).isSome

theorem HistoriesKept.effect {state state' : MemoryState} (h : HistoriesKept ctx state)
    {subject : String} {record : Option SubordinateRecord} {events : List SubordinateEvent}
    (heffect : Effect ctx.entityId state state' subject record events)
    (hsubject : Recorded ((state.listEvents ctx.entityId subject).map (·.event) ++
      events.map (·.event)) record.isSome) : HistoriesKept ctx state' := by
  refine ⟨heffect.enabled, fun s => ?_⟩
  rw [heffect.histories, heffect.records]
  by_cases hs : s = subject
  · subst hs
    rw [if_pos rfl, if_pos rfl, List.map_append]
    exact hsubject
  · rw [if_neg hs, if_neg hs, List.append_nil]
    exact h.recorded s

theorem HistoriesKept.step (hn : NumberTexts numberText) (hctx : ctx.subordinateEvents = true)
    {state : MemoryState} (h : HistoriesKept ctx state) (call : LifecycleCall) :
    HistoriesKept ctx ((call.operation numberText ctx).run state).2 := by
  cases call with
  | register record iat =>
    rcases register_cases numberText hctx h.enabled record iat with
      ⟨e, hrun⟩ | ⟨stored, state', hrun, hnone, heffect⟩
    · rw [hrun]
      exact h
    · rw [hrun]
      have hrecorded := h.recorded record.entityId
      rw [hnone] at hrecorded
      exact h.effect heffect hrecorded.register
  | update subject updates now iat =>
    rcases update_cases numberText hctx h.enabled subject updates now iat with
      ⟨e, hrun⟩ | ⟨before, after, eventTypes, state', hrun, hbefore, htypes, heffect⟩
    · rw [hrun]
      exact h
    · rw [hrun]
      have hrecorded := h.recorded subject
      rw [hbefore] at hrecorded
      refine h.effect heffect (hrecorded.update fun event hevent => ?_)
      rw [List.map_map] at hevent
      obtain ⟨eventType, hmem, rfl⟩ := List.mem_map.mp hevent
      rw [updateEvents_eq hn htypes] at hmem
      exact changedAspects_updates _ hmem
  | revoke subject iat =>
    rcases revoke_cases numberText hctx h.enabled subject iat with
      ⟨e, hrun⟩ | ⟨state', hrun, hpresent, heffect⟩
    · rw [hrun]
      exact h
    · rw [hrun]
      have hrecorded := h.recorded subject
      rw [hpresent] at hrecorded
      exact h.effect heffect hrecorded.revoke

/-- An adapter with event history, without records. -/
structure NewStorage (initial : MemoryState) : Prop where
  subordinates : initial.subordinates = .empty
  subordinateEvents : initial.subordinateEvents = some .empty

theorem NewStorage.kept {initial : MemoryState} (h : NewStorage initial) :
    HistoriesKept ctx initial := by
  refine ⟨by rw [h.subordinateEvents]; rfl, fun subject => ?_⟩
  have hhistory : initial.listEvents ctx.entityId subject = [] := by
    simp [MemoryState.listEvents, h.subordinateEvents]
  rw [hhistory, MemoryState.getSubordinate, h.subordinates]
  exact .empty

/-- What the history of an adapter promises, when lifecycle calls alone write to it. -/
structure LifecycleRecorded (numberText : Rat → String) (ctx : LifecycleContext)
    (initial : MemoryState) (S : State MemoryState StorageError (Option Unit)) : Prop where
  recorded : ∀ subject, Recorded ((S.shared.listEvents ctx.entityId subject).map (·.event))
    (S.shared.getSubordinate subject).isSome
  /-- An update that has succeeded changed one record, and appended the events of its changes. -/
  updated : ∀ i call subject updates now iat result, S.calls[i]? = some call →
    call.operation = (LifecycleCall.update subject updates now iat).operation numberText ctx →
    call.stage.result? = some (.ok result) →
      ∃ before after,
        (stateAfter initial (S.operations.take i)).getSubordinate subject = some before ∧
        Effect ctx.entityId (stateAfter initial (S.operations.take i))
          (stateAfter initial (S.operations.take (i + 1))) subject (some after)
          ((changedAspects before after).map fun event => ⟨iat, event⟩)

/-- In every run of lifecycle calls over an adapter, histories and records belong together. -/
theorem lifecycle_recorded (hn : NumberTexts numberText) (hctx : ctx.subordinateEvents = true)
    {initial : MemoryState} (hnew : NewStorage initial)
    {S : State MemoryState StorageError (Option Unit)}
    (h : (memoryStorageAdapter Unit initial).Reach S)
    (hwrites : ∀ op ∈ S.operations, ∃ call : LifecycleCall, op = call.operation numberText ctx) :
    LifecycleRecorded numberText ctx initial S := by
  have hserial := (memoryStorage_serializable h).1
  have hkept : ∀ k, HistoriesKept ctx (stateAfter initial (S.operations.take k)) := by
    intro k
    refine stateAfter_invariant hnew.kept fun op hop state hstate => ?_
    obtain ⟨call, rfl⟩ := hwrites op (List.mem_of_mem_take hop)
    exact hstate.step hn hctx call
  refine ⟨fun subject => ?_, ?_⟩
  · obtain ⟨k, -, hshared, -⟩ := hserial.committed
    rw [hshared]
    exact (hkept k).recorded subject
  · intro i call subject updates now iat result hi hop hresult
    have hget : S.operations[i]? = some call.operation := by simp [State.operations, hi]
    have hafter : stateAfter initial (S.operations.take (i + 1)) =
        (call.operation.run (stateAfter initial (S.operations.take i))).2 := by
      rw [List.take_add_one, hget, Option.toList_some, stateAfter_concat]
    have hran := hserial.results i call _ hi hresult
    rw [resultAfter, hop] at hran
    rw [hafter, hop]
    rcases update_cases numberText hctx (hkept i).enabled subject updates now iat with
      ⟨e, hrun⟩ | ⟨before, after, eventTypes, state', hrun, hbefore, htypes, heffect⟩
    · rw [hrun] at hran
      simp at hran
    · rw [hrun]
      rw [updateEvents_eq hn htypes] at heffect
      exact ⟨before, after, hbefore, heffect⟩

end Runs

/-! ## A run -/

def exampleContext : LifecycleContext := ⟨"https://ta.example", true⟩

def lifecycleStorage : MemoryState := ⟨.empty, none, some .empty⟩

/-- The metadata of a client with a name. -/
def clientNamed (name : String) : Json :=
  .obj [("openid_relying_party", .obj [("client_name", .str name)])]

def exampleSubordinate : SubordinateRecord where
  entityId := "https://rp.example"
  jwks := .obj [("keys", .arr [])]
  metadata := some (clientNamed "a")
  createdAt := 0
  updatedAt := 0

/-- A subordinate is registered, its metadata is replaced, and it is revoked; all three are called
before the first one runs. -/
def lifecycleMoves : List (Move MemoryState StorageError (Option Unit)) :=
  let calls : List LifecycleCall :=
    [.register exampleSubordinate 1,
      .update "https://rp.example" { metadata := some (some (clientNamed "b")) } 2 2,
      .revoke "https://rp.example" 3]
  calls.map (fun call => .invoke (call.operation decimalText exampleContext)) ++
    List.replicate 7 (.advance 0) ++ List.replicate 9 (.advance 1) ++ List.replicate 6 (.advance 2)

theorem lifecycleMoves_calls : ∀ op, .invoke op ∈ lifecycleMoves →
    ∃ call : LifecycleCall, op = call.operation decimalText exampleContext := by
  intro op hop
  simp only [lifecycleMoves, List.mem_append, List.mem_map, Move.invoke.injEq, List.mem_replicate,
    reduceCtorEq, and_false, or_false] at hop
  obtain ⟨call, -, hcall⟩ := hop
  exact ⟨call, hcall.symm⟩

theorem lifecycleMoves_recorded : ∃ S,
    play { shared := lifecycleStorage } lifecycleMoves = some S ∧
      (S.shared.listEvents "https://ta.example" "https://rp.example").map (·.event) =
        ["registration", "metadata_update", "revocation"] ∧
      LifecycleRecorded decimalText exampleContext lifecycleStorage S := by
  have hhistory : (play { shared := lifecycleStorage } lifecycleMoves).map (fun S =>
      (S.shared.listEvents "https://ta.example" "https://rp.example").map (·.event)) =
        some ["registration", "metadata_update", "revocation"] := by decide +kernel
  obtain ⟨S, hplay, hevents⟩ := Option.map_eq_some_iff.mp hhistory
  refine ⟨S, hplay, hevents, ?_⟩
  have hreach : (memoryStorageAdapter Unit lifecycleStorage).Reach S := by
    refine reach_play lifecycleMoves (.init rfl) (fun op hop => ?_) hplay
    obtain ⟨call, rfl⟩ := lifecycleMoves_calls op hop
    cases call <;> exact .transaction _
  have hwrites := kind_of_reach (reach_play lifecycleMoves (.init rfl) lifecycleMoves_calls hplay)
  exact lifecycle_recorded numberTexts_decimalText rfl ⟨rfl, rfl⟩ hreach hwrites

end OidFed
