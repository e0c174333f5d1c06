import OidFed.Js.Utf16
import OidFed.MetadataValues

/-!
# The state of the in-memory storage (`authority/src/storage/memory.ts`)

The records, the reads and the mutations of `MemorySubordinateStorage`, `MemoryTrustMarkStorage`
and `MemorySubordinateEventStorage`. A mutation is a function of the state that may fail; it gives
the state that it leaves in either case. `Mutation.failed`: one that fails leaves the state as it
was, so that none is half applied.

Values are copied into and out of the state. Members of records and events that nothing here reads
are left out.
-/

namespace OidFed

open Js

/-- The exceptions of the storage. -/
inductive StorageError where
  | error (message : String)
  | typeError (message : String)
  | invalidRecord (message : String)
  deriving DecidableEq, Repr

structure SubordinateRecord where
  entityId : String
  jwks : Json
  metadata : Option Json := none
  metadataPolicy : Option Json := none
  entityTypes : Option (List String) := none
  isIntermediate : Option Bool := none
  createdAt : Rat
  updatedAt : Rat
  deriving DecidableEq

/-- The members that an update gives; the value of `metadata` may be given as undefined. -/
structure SubordinateRecordUpdate where
  jwks : Option Json := none
  metadata : Option (Option Json) := none
  metadataPolicy : Option Json := none
  entityTypes : Option (List String) := none
  isIntermediate : Option Bool := none
  deriving DecidableEq

structure TrustMarkRecord where
  trustMarkType : String
  subject : String
  jwt : String
  issuedAt : Rat
  expiresAt : Option Rat := none
  active : Bool
  revokedAt : Option Rat := none
  deriving DecidableEq

structure SubordinateEvent where
  iat : Rat
  event : String
  deriving DecidableEq

structure MemoryState where
  subordinates : Dict String SubordinateRecord
  trustMarks : Option (Dict String TrustMarkRecord)
  subordinateEvents : Option (Dict String (Dict String (List SubordinateEvent)))
  deriving DecidableEq

/-! ## Validation of records -/

def federationEntityOperationalFields : List String :=
  ["federation_collection_endpoint", "federation_collection_endpoint_auth_methods",
    "federation_subordinate_events_endpoint", "federation_subordinate_events_endpoint_auth_methods",
    "federation_extended_list_endpoint", "federation_extended_list_endpoint_auth_methods",
    "federation_fetch_endpoint", "federation_fetch_endpoint_auth_methods",
    "federation_historical_keys_endpoint", "federation_historical_keys_endpoint_auth_methods",
    "federation_list_endpoint", "federation_list_endpoint_auth_methods",
    "federation_resolve_endpoint", "federation_resolve_endpoint_auth_methods",
    "federation_trust_mark_endpoint", "federation_trust_mark_endpoint_auth_methods",
    "federation_trust_mark_list_endpoint", "federation_trust_mark_list_endpoint_auth_methods",
    "federation_trust_mark_status_endpoint", "federation_trust_mark_status_endpoint_auth_methods",
    "endpoint_auth_signing_alg_values_supported"]

def isFederationEntityOperationalField (key : String) : Bool :=
  federationEntityOperationalFields.contains key

def pathText (path : List PathItem) : String :=
  path.foldl (fun text component =>
    match component with
    | .index i => text ++ "[" ++ i.repr ++ "]"
    | .name k => if text = "" then k else text ++ "." ++ k) ""

/-- Check a record's metadata. `prototype` is the object that the metadata inherits from, if that
is not the usual one. -/
def validateSubordinateRecord (metadata : Option Json) (prototype : Option Json := none) :
    Except StorageError Unit :=
  match metadata with
  | none => .ok ()
  | some metadata =>
    if !metadata.truthy then .ok ()
    else
      let own := metadata.get? "federation_entity"
      let fed := if own.isSome then own else prototype.bind fun p => p.get? "federation_entity"
      let offenders := match fed with
        | some (.obj l) => (l.map Prod.fst).filter isFederationEntityOperationalField
        | _ => []
      if !offenders.isEmpty then
        .error (.invalidRecord ("SubordinateRecord.metadata.federation_entity must not carry " ++
          "operational fields (these belong only in the subordinate's own Entity Configuration). " ++
          "Offending field(s): " ++ ", ".intercalate offenders ++ ". Apply " ++
          "TrustAnchor.sanitizeSubordinateMetadata or Intermediate.sanitizeSubordinateMetadata " ++
          "before calling add()."))
      else
        match metadata with
        | .obj _ =>
          match findInvalidMetadataNullPaths metadata with
          | [] => .ok ()
          | path :: _ =>
            let text := pathText path
            .error (.invalidRecord ("SubordinateRecord.metadata has a null leaf value: metadata " ++
              "values must not be null; null found at path \"" ++
              (if text = "" then "<root>" else text) ++ "\". Omit the field instead."))
        | _ => .ok ()

/-! ## Reads -/

def isValidTrustMark (record : TrustMarkRecord) (validAt : Rat) : Bool :=
  record.active && record.expiresAt.all fun expiresAt => decide (validAt < expiresAt)

/-- The order in which `getValid` prefers records: the latest, then the greater JWT. -/
def preferredTrustMark (a b : TrustMarkRecord) : Bool :=
  if a.issuedAt = b.issuedAt then textLe b.jwt a.jwt else decide (b.issuedAt ≤ a.issuedAt)

namespace MemoryState

variable (state : MemoryState)

def getSubordinate (entityId : String) : Option SubordinateRecord :=
  state.subordinates.get? entityId

/-- The preferred valid mark of a type for a subject. -/
def getValid (trustMarkType subject : String) (validAt : Rat) :
    Except StorageError (Option TrustMarkRecord) :=
  match state.trustMarks with
  | none => .error (.error "Trust mark storage is not enabled")
  | some records => .ok ((((records.members.map Prod.snd).filter fun record =>
      record.trustMarkType == trustMarkType && record.subject == subject &&
        isValidTrustMark record validAt).mergeSort preferredTrustMark).head?)

/-- The events recorded by an issuer for a subject. -/
def listEvents (issuer subject : String) : List SubordinateEvent :=
  ((state.subordinateEvents.bind fun history => history.get? issuer).bind fun subjects =>
    subjects.get? subject).getD []

end MemoryState

/-! ## Mutations -/

inductive Mutation where
  | add (record : SubordinateRecord)
  | update (entityId : String) (updates : SubordinateRecordUpdate)
  | remove (entityId : String)
  | issue (record : TrustMarkRecord)
  | revoke (trustMarkType subject : String) (revokedAt : Rat)
  | append (issuer subject : String) (events : List SubordinateEvent)

/-- The record after an update at a time. -/
def updatedRecord (existing : SubordinateRecord) (updates : SubordinateRecordUpdate) (now : Rat) :
    SubordinateRecord where
  entityId := existing.entityId
  jwks := updates.jwks.getD existing.jwks
  metadata := updates.metadata.getD existing.metadata
  metadataPolicy := updates.metadataPolicy.or existing.metadataPolicy
  entityTypes := updates.entityTypes.or existing.entityTypes
  isIntermediate := updates.isIntermediate.or existing.isIntermediate
  createdAt := existing.createdAt
  updatedAt := now

/-- The active records of a type for a subject, revoked at a time. -/
def revokeRecord (trustMarkType subject : String) (revokedAt : Rat) (record : TrustMarkRecord) :
    TrustMarkRecord :=
  if record.trustMarkType == trustMarkType && record.subject == subject && record.active then
    { record with active := false, revokedAt := some revokedAt }
  else record

namespace MemoryState

def addSubordinate (record : SubordinateRecord) (state : MemoryState) :
    Except StorageError Unit × MemoryState :=
  if (state.subordinates.get? record.entityId).isSome then
    (.error (.error s!"Subordinate '{record.entityId}' already exists"), state)
  else (.ok (), { state with subordinates := state.subordinates.set record.entityId record })

def updateSubordinate (entityId : String) (updates : SubordinateRecordUpdate) (now : Rat)
    (state : MemoryState) : Except StorageError Unit × MemoryState :=
  match state.subordinates.get? entityId with
  | none => (.error (.error s!"Subordinate '{entityId}' not found"), state)
  | some existing =>
    let updated := updatedRecord existing updates now
    match validateSubordinateRecord updated.metadata with
    | .error e => (.error e, state)
    | .ok () => (.ok (), { state with subordinates := state.subordinates.set entityId updated })

def removeSubordinate (entityId : String) (state : MemoryState) :
    Except StorageError Unit × MemoryState :=
  if (state.subordinates.get? entityId).isSome then
    (.ok (), { state with subordinates := state.subordinates.erase entityId })
  else (.error (.error s!"Subordinate '{entityId}' not found"), state)

def issueTrustMark (record : TrustMarkRecord) (state : MemoryState) :
    Except StorageError Unit × MemoryState :=
  match state.trustMarks with
  | none => (.error (.error "Trust mark storage is not enabled"), state)
  | some records =>
    if (records.get? record.jwt).isSome then (.ok (), state)
    else (.ok (), { state with trustMarks := some (records.set record.jwt record) })

def revokeTrustMark (trustMarkType subject : String) (revokedAt : Rat) (state : MemoryState) :
    Except StorageError Unit × MemoryState :=
  match state.trustMarks with
  | none => (.error (.error "Trust mark storage is not enabled"), state)
  | some records =>
    let found := records.members.any fun e =>
      e.2.trustMarkType == trustMarkType && e.2.subject == subject && e.2.active
    let state := { state with
      trustMarks := some (records.mapValues (revokeRecord trustMarkType subject revokedAt)) }
    if found then (.ok (), state)
    else (.error (.error s!"Trust mark '{trustMarkType}' for '{subject}' not found"), state)

def appendEvents (issuer subject : String) (events : List SubordinateEvent) (state : MemoryState) :
    Except StorageError Unit × MemoryState :=
  match state.subordinateEvents with
  | none => (.error (.error "Subordinate event storage is not enabled"), state)
  | some history =>
    let subjects := (history.get? issuer).getD .empty
    let subjects := subjects.set subject ((subjects.get? subject).getD [] ++ events)
    (.ok (), { state with subordinateEvents := some (history.set issuer subjects) })

end MemoryState

/-- A mutation of the state, with the reading of the clock that it takes. -/
def Mutation.apply (now : Rat) : Mutation → MemoryState → Except StorageError Unit × MemoryState
  | add record => MemoryState.addSubordinate record
  | update entityId updates => MemoryState.updateSubordinate entityId updates now
  | remove entityId => MemoryState.removeSubordinate entityId
  | issue record => MemoryState.issueTrustMark record
  | revoke trustMarkType subject revokedAt =>
    MemoryState.revokeTrustMark trustMarkType subject revokedAt
  | append issuer subject events => MemoryState.appendEvents issuer subject events

/-- What a mutation checks of its arguments before it waits for its turn. -/
def Mutation.check : Mutation → Except StorageError Unit
  | add record => validateSubordinateRecord record.metadata
  | _ => .ok ()

theorem revokeRecord_of_none {records : List (String × TrustMarkRecord)}
    {trustMarkType subject : String} (revokedAt : Rat)
    (h : records.any (fun e => e.2.trustMarkType == trustMarkType && e.2.subject == subject &&
      e.2.active) = false) :
    records.map (fun e => (e.1, revokeRecord trustMarkType subject revokedAt e.2)) = records := by
  have hsame : ∀ e ∈ records, (e.1, revokeRecord trustMarkType subject revokedAt e.2) = e := by
    intro e he
    have := List.any_eq_false.mp h e he
    simp [revokeRecord, this]
  rw [List.map_congr_left hsame, List.map_id']

/-- A mutation that fails leaves the state as it was. -/
theorem Mutation.failed {m : Mutation} {now : Rat} {state state' : MemoryState} {e : StorageError}
    (h : m.apply now state = (.error e, state')) : state' = state := by
  cases m with
  | add record =>
    simp only [Mutation.apply, MemoryState.addSubordinate] at h
    split at h
    · exact (Prod.mk.inj h).2.symm
    · simp at h
  | update entityId updates =>
    simp only [Mutation.apply, MemoryState.updateSubordinate] at h
    split at h
    · exact (Prod.mk.inj h).2.symm
    · split at h
      · exact (Prod.mk.inj h).2.symm
      · simp at h
  | remove entityId =>
    simp only [Mutation.apply, MemoryState.removeSubordinate] at h
    split at h
    · simp at h
    · exact (Prod.mk.inj h).2.symm
  | issue record =>
    simp only [Mutation.apply, MemoryState.issueTrustMark] at h
    split at h
    · exact (Prod.mk.inj h).2.symm
    · -- a JWT that is stored already is answered with its record
      split at h <;> simp at h
  | revoke trustMarkType subject revokedAt =>
    simp only [Mutation.apply, MemoryState.revokeTrustMark] at h
    split at h
    · exact (Prod.mk.inj h).2.symm
    · rename_i records hrecords
      split at h
      · simp at h
      · -- no record has been found, so none has been changed
        rename_i hfound
        rw [← (Prod.mk.inj h).2]
        have hmembers := revokeRecord_of_none revokedAt (by simpa using hfound)
        have hmap : records.mapValues (revokeRecord trustMarkType subject revokedAt) = records := by
          cases records
          simp only [Dict.mapValues, Dict.mk.injEq]
          exact hmembers
        rw [hmap, ← hrecords]
  | append issuer subject events =>
    simp only [Mutation.apply, MemoryState.appendEvents] at h
    split at h
    · exact (Prod.mk.inj h).2.symm
    · simp at h

end OidFed
