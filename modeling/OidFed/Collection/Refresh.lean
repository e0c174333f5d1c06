import OidFed.Collection.Protocol
import OidFed.Collection.VerifiedMarks

/-!
# Building a snapshot (`core/src/entity-collection/refresh.ts`)

The entities of a snapshot come from a collector, or from a traversal of the federation that starts
at the anchor and follows the lists of subordinates. Two passes verify their marks, and a filter has
the last word on each.

* `CollectionRefresh`: the configuration, and what the refresh meets of the federation.
* `collectCandidates`, `traverse`: the entities of a collector, and those of the federation.
* `buildCollectionSnapshot`: the snapshot, or the error it ends with.
-/

namespace OidFed

open Js

/-- The configuration of a collection, and what a refresh of it meets: functions that fetch, the
collector and the filter of the application, the clock and the signal. A function that fetches is
asked once for each of its arguments; `none` is a rejected promise. -/
structure CollectionRefresh where
  host : HttpHost
  isLanguageTag : String → Bool := fun _ => false
  trustAnchors : TrustAnchorSet
  options : TrustChainValidationOptions := {}
  maxChainDepth : Nat := 8
  maxEntities : Nat := 10000
  collector : Option (Option (Except FederationError Json)) := none
  filter : Option (Nat → CollectionEntry → Option Json) := none
  clock : Nat → Clock
  /-- The signal; a refresh that exhausts its fetches aborts too. -/
  aborted : Nat → Bool := fun _ => false
  outsideValid : Nat → Bool := fun _ => false
  configuration : String → Option (Except FederationError String)
  statement : String → String → String → Option (Except FederationError String)
  listing : String → String → Option (Except FederationError (List String))
  resolveTrustChains : Nat → Json → Bool → Option TrustChainResult
  randomUUID : String

/-- The evidence of a refresh for an anchor. -/
def CollectionRefresh.evidence (W : CollectionRefresh) (anchor : String) (jwks : JWKSet) :
    EvidenceContext where
  host := W.host
  trustAnchor := anchor
  trustAnchors := Dict.empty.set anchor jwks
  options := W.options
  clock := W.clock
  aborted := W.aborted
  outsideValid := W.outsideValid
  configuration := W.configuration
  resolveTrustChains := W.resolveTrustChains

/-- The value of a `Result` that a promise gives. -/
def resultOf {α : Type} : Option (Except FederationError α) → Except RefreshStop α
  | none => .error .thrown
  | some (.error e) => .error (.failed e)
  | some (.ok a) => .ok a

theorem resultOf_eq_ok {α : Type} {p : Option (Except FederationError α)} {a : α} :
    resultOf p = .ok a ↔ p = some (.ok a) := by
  obtain _ | (e | b) := p <;> simp [resultOf]

/-! ## Entities of a collection -/

/-- `name.split("#")`. -/
def splitTags (name : String) : List String := (name.toList.splitOn '#').map String.ofList

/-- The parameter of an entity type that stands for a missing `display_name`. -/
def displayNameFallback (type : String) : Option String :=
  if type = "openid_relying_party" ∨ type = "oauth_client" then some "client_name"
  else if type = "oauth_resource" then some "resource_name"
  else none

/-- The values of a fallback under `display_name`, where that is not there, language by language. -/
def addDisplayNames (fallback : String) (values : List (String × Json)) (info : Dict String Json) :
    Dict String Json :=
  values.foldl (fun info p =>
    if p.1 = fallback ∨ startsWith p.1 (fallback ++ "#") then
      let target := "display_name" ++ String.ofList (p.1.toList.drop fallback.length)
      if (info.get? target).isSome then info else info.set target p.2
    else info) info

/-- The informational claims of an entity type. -/
def informationOf (type : String) (values : List (String × Json)) : Dict String Json :=
  let info := Dict.ofEntries (values.filter fun p =>
    collectionInfoClaims.contains ((splitTags p.1).headD ""))
  match displayNameFallback type with
  | none => info
  | some fallback => addDisplayNames fallback values info

def informationalMetadata (metadata : Json) : Json :=
  .obj ((metadata.entries.getD []).map fun t =>
    (t.1, .obj (informationOf t.1 (t.2.entries.getD [])).members))

section Entities

variable (P : Platform) (isLanguageTag : String → Bool)

/-- An informational claim, with a language tag or without one. -/
def infoClaimSchema (name : String) (value : Json) : Bool :=
  let base := (splitTags name).headD ""
  let tags := (splitTags name).tail
  !collectionInfoClaims.contains base ||
    ((tags.isEmpty || (tags.length == 1 && isLanguageTag (tags.headD ""))) &&
      federationEntityMetadataSchema P (.obj [(base, value)]))

def entityTypeInfoSchema : Schema
  | .obj l => l.all fun p => p.1 == "__proto__" || infoClaimSchema P isLanguageTag p.1 p.2
  | _ => false

def entityCollectionEntitySchema : Schema :=
  Schema.looseObject
    [{ name := "entity_id", schema := entityIdSchema P },
      { name := "entity_types", schema := Schema.array Schema.string, optional := true },
      { name := "entity_infos", optional := true,
        schema := Schema.record (entityTypeInfoSchema P isLanguageTag) },
      { name := "trust_marks", schema := Schema.array trustMarkRefSchema, optional := true }]

/-- A reference without further members. -/
def referenceOutput : Json → Json
  | .obj l => .obj (l.filter fun p => p.1 == "trust_mark_type" || p.1 == "trust_mark")
  | v => v

def referencesOutput : Json → Json
  | .arr l => .arr (l.map referenceOutput)
  | v => v

/-- The output for a member of an accepted entity. -/
def entityMemberOutput (name : String) (v : Json) : Json :=
  if name = "entity_id" then urlValue P v
  else if name = "trust_marks" then referencesOutput v
  else v

/-- Parse an entity of a collection. -/
def parseEntity (v : Json) : Option Json :=
  if entityCollectionEntitySchema P isLanguageTag v then some (objectOutput (entityMemberOutput P) v)
  else none

/-- A candidate of a collector, an object with an entity and an expiration only. -/
def parseCandidate : Json → Option CollectionEntry
  | .obj l =>
    if l.all fun p => p.1 == "entity" || p.1 == "expiresAt" then
      match l.lookup "entity", l.lookup "expiresAt" with
      | some entity, some (.num expiresAt) =>
        (parseEntity P isLanguageTag entity).map fun entity => { entity, expiresAt }
      | _, _ => none
    else none
  | _ => none

/-- What a collection says of an entity that publishes a configuration. -/
def publishedEntity (id : String) (payload : EntityConfigurationPayload) : Json :=
  let metadata := payload.metadata.getD (.obj [])
  .obj ([("entity_id", .str id),
      ("entity_types", .arr ((metadata.entries.getD []).map fun t => .str t.1)),
      ("entity_infos", informationalMetadata metadata)] ++
    match payload.trustMarks with
    | none => []
    | some refs => [("trust_marks", .arr (refs.map fun ref =>
        .obj [("trust_mark_type", .str ref.trustMarkType), ("trust_mark", .str ref.trustMark)]))])

end Entities

/-! ## The collector -/

section Build

variable (W : CollectionRefresh) (C : EvidenceContext)

/-- Add a candidate: its references are well formed, and it is the only one for its entity. -/
def addCandidate (entries : Dict String CollectionEntry) (input : Json) :
    Except RefreshStop (Dict String CollectionEntry) :=
  match parseCandidate W.host.toPlatform W.isLanguageTag input with
  | none => .error .thrown
  | some entry =>
    let errors := trustMarkReferenceErrors W.host.toPlatform 0 (entry.entity.get? "trust_marks")
    if !errors.isEmpty || (entries.get? (entityIdOf entry.entity)).isSome then .error .thrown
    else .ok (entries.set (entityIdOf entry.entity) entry)

def collectCandidates (supplied : Option (Except FederationError Json)) :
    Except RefreshStop (Dict String CollectionEntry) := do
  let supplied ← resultOf supplied
  match supplied with
  | .arr inputs =>
    if W.maxEntities < inputs.length then .error .thrown
    else inputs.foldlM (addCandidate W) .empty
  | _ => .error .thrown

/-! ## The traversal -/

/-- An authority whose subordinates are to be examined. -/
structure CollectionNode where
  id : String
  chain : List String
  depth : Nat
  path : List String

/-- The state of a traversal: the authorities that remain, and what has been found. -/
structure Traversal where
  queue : List CollectionNode
  traversed : List (List String) := []
  examined : Nat := 0
  entries : Dict String CollectionEntry := .empty
  publications : Dict String EntityConfigurationPayload := .empty
  evidence : CollectionEvidence

/-- The entry of an entity with one more validated path. -/
def entryWith (previous : Option CollectionEntry) (entity : Json) (expiresAt : Rat) :
    CollectionEntry where
  entity := entity
  expiresAt := laterOf (previous.map (·.expiresAt)) expiresAt
  chainExpiresAt := some (laterOf (previous.bind (·.chainExpiresAt)) expiresAt)

/-- Add an entity with a validated path, where its configuration is its own and can be shown. -/
def addChild (node : CollectionNode) (id : String) (chain : List String)
    (verified : AuthenticatedChain) (T : Traversal) : Traversal :=
  match decodeEntityConfiguration W.host.toPlatform (chain.headD "") with
  | none => T
  | some payload =>
    if payload.sub ≠ id then T
    else
      match parseEntity W.host.toPlatform W.isLanguageTag (publishedEntity id payload) with
      | none => T
      | some entity =>
        { T with
          entries := T.entries.set id (entryWith (T.entries.get? id) entity verified.expiresAt)
          publications := T.publications.set id payload
          queue := T.queue ++ [{ id, chain, depth := node.depth + 1, path := node.path ++ [id] }] }

/-- The path from a subordinate of a node to the anchor. -/
def childChain (node : CollectionNode) (ec ss : String) : List String :=
  ec :: ss :: if node.id = C.trustAnchor then node.chain else node.chain.tail

/-- Fetch and validate what a subordinate and its superior state. -/
def examineChild (node : CollectionNode) (fetchEndpoint id : String) (T : Traversal) :
    Except RefreshStop Traversal := do
  let ec ← resultOf (C.configuration id)
  let ss ← resultOf (W.statement node.id fetchEndpoint id)
  let (verified, s) ← validatePath C T.evidence (childChain C node ec ss)
  match verified with
  | none => .ok { T with evidence := s }
  | some verified =>
    .ok (addChild W node id (childChain C node ec ss) verified { T with evidence := s })

/-- A subordinate of the list of a node. -/
def visitChild (node : CollectionNode) (fetchEndpoint : String) (T : Traversal) (id : String) :
    Except RefreshStop Traversal :=
  if !isValidEntityId W.host.toPlatform id then .error .thrown
  else if node.path.contains id then .ok T
  else if W.maxEntities < T.examined + 1 then .error .thrown
  else if W.maxChainDepth ≤ node.depth then .error .thrown
  else examineChild W C node fetchEndpoint id { T with examined := T.examined + 1 }

/-- An endpoint of the federation entity that a configuration describes, if it is not empty. -/
def federationEndpoint (payload : EntityConfigurationPayload) (name : String) : Option String :=
  (((payload.metadata.bind (·.get? "federation_entity")).bind (·.get? name)).bind
    Json.string?).filter (· ≠ "")

/-- The subordinates of a node, where it lists any. -/
def visitNode (node : CollectionNode) (T : Traversal) : Except RefreshStop Traversal :=
  match decodeEntityConfiguration W.host.toPlatform (node.chain.headD "") with
  | none => .error .thrown
  | some payload =>
    match federationEndpoint payload "federation_list_endpoint" with
    | none => .ok T
    | some listEndpoint =>
      match federationEndpoint payload "federation_fetch_endpoint" with
      | none => .error .thrown
      | some fetchEndpoint => do
        let list ← resultOf (W.listing node.id listEndpoint)
        list.eraseDups.foldlM (visitChild W C node fetchEndpoint) T

/-- The next authority of the queue; a path is followed once. -/
def traverseNode (node : CollectionNode) (T : Traversal) : Except RefreshStop Traversal := do
  let s ← checkAborted C T.evidence
  if T.traversed.contains node.path then .ok { T with evidence := s }
  else visitNode W C node { T with evidence := s, traversed := node.path :: T.traversed }

/-- The loop over the queue; `none` where the fuel does not last. -/
def traverse : Nat → Traversal → Option (Except RefreshStop Traversal)
  | 0, T => if T.queue.isEmpty then some (.ok T) else none
  | fuel + 1, T =>
    match T.queue with
    | [] => some (.ok T)
    | node :: rest =>
      match traverseNode W C node { T with queue := rest } with
      | .error stop => some (.error stop)
      | .ok T => traverse fuel T

/-- As many authorities as entities may be examined, and the anchor: see `traverse_isSome`. -/
def traverseFuel : Nat := W.maxEntities + 1

/-- The entities of the federation. -/
def traverseFederation : Except RefreshStop Traversal := do
  let (root, s) ← root C {}
  match root with
  | .error e => .error (.failed e)
  | .ok root =>
    let anchor : CollectionNode :=
      { id := C.trustAnchor, chain := [root.jwt], depth := 0, path := [C.trustAnchor] }
    (traverse W C (traverseFuel W) { queue := [anchor], evidence := s }).getD (.error .thrown)

/-! ## The passes and the snapshot -/

/-- The entries of a refresh, with the configurations that were validated along their paths. -/
structure GatheredEntries where
  entries : Dict String CollectionEntry
  publications : Dict String EntityConfigurationPayload := .empty
  evidence : CollectionEvidence := {}

def gatherEntries : Except RefreshStop GatheredEntries :=
  match W.collector with
  | some supplied => do
    let entries ← collectCandidates W supplied
    return { entries }
  | none => do
    let T ← traverseFederation W C
    return { entries := T.entries, publications := T.publications, evidence := T.evidence }

/-- A loop over entries that keeps what `visit` leaves of each. -/
def visitEntries
    (visit : CollectionEvidence → String → CollectionEntry →
      Except RefreshStop (Option CollectionEntry × CollectionEvidence))
    (s : CollectionEvidence) : List (String × CollectionEntry) →
      Except RefreshStop (List (String × CollectionEntry) × CollectionEvidence)
  | [] => .ok ([], s)
  | (id, entry) :: rest => do
    let (kept, s) ← visit s id entry
    let (entries, s) ← visitEntries visit s rest
    return ((kept.map fun entry => (id, entry)).toList ++ entries, s)

/-- The first pass over an entry: marks of issuers that the anchor lists. -/
def verifyListed (publications : Dict String EntityConfigurationPayload) (s : CollectionEvidence)
    (id : String) (entry : CollectionEntry) :
    Except RefreshStop (Option CollectionEntry × CollectionEvidence) :=
  if entry.expiresAt ≤ C.clockAt s .start then .ok (none, s.next)
  else do
    let (entry, s) ← verifyMarks C s.next entry (publications.get? id) false
    return (some entry, s)

/-- The entry, and its marks, until a time at the latest. -/
def shortenTo (expiresAt : Rat) (entry : CollectionEntry) : CollectionEntry :=
  { entry with
    expiresAt := min entry.expiresAt expiresAt
    verifiedMarks := entry.verifiedMarks.map fun mark =>
      (mark.1, min mark.2 (min entry.expiresAt expiresAt)) }

/-- The decision of a filter: to drop the entry, to keep it, or a deadline. -/
def applyDecision (entry : CollectionEntry) : Json → Except RefreshStop (Option CollectionEntry)
  | .bool false => .ok none
  | .bool true => .ok (some entry)
  | .obj [("expiresAt", .num expiresAt)] => .ok (some (shortenTo expiresAt entry))
  | _ => .error .thrown

def filterEntry (s : CollectionEvidence) (entry : CollectionEntry) :
    Except RefreshStop (Option CollectionEntry × CollectionEvidence) :=
  match W.filter with
  | none => .ok (some entry, s)
  | some filter => do
    let decision ← settled (filter s.tick entry)
    let entry ← applyDecision entry decision
    return (entry, s.next)

/-- The last pass over an entry: marks of open types, the filter, and the clock. -/
def finishEntry (publications : Dict String EntityConfigurationPayload) (s : CollectionEvidence)
    (id : String) (entry : CollectionEntry) :
    Except RefreshStop (Option CollectionEntry × CollectionEvidence) := do
  let (entry, s) ← verifyMarks C s entry (publications.get? id) true
  let (kept, s) ← filterEntry W s entry
  match kept with
  | none => .ok (none, s)
  | some entry =>
    .ok (if entry.expiresAt ≤ C.clockAt s .start then none else some entry, s.next)

/-- Sorted by the identifiers of the entities. -/
def sortEntries (entries : List CollectionEntry) : List CollectionEntry :=
  entries.insertionSort fun a b => textLe (entityIdOf a.entity) (entityIdOf b.entity)

def collectSnapshot : Except RefreshStop EntityCollectionSnapshot := do
  let gathered ← gatherEntries W C
  let (listed, s) ← visitEntries (verifyListed C gathered.publications) gathered.evidence
    gathered.entries.members
  let (finished, s) ← visitEntries (finishEntry W C gathered.publications) s listed
  let s ← checkAborted C s
  return {
    id := W.randomUUID
    trustAnchor := C.trustAnchor
    lastUpdated := C.clockAt s .start
    entries := sortEntries (finished.map Prod.snd) }

end Build

def buildCollectionSnapshot (W : CollectionRefresh) (anchor : String) :
    Except FederationError EntityCollectionSnapshot :=
  match W.trustAnchors.get? anchor with
  | none => .error (federationError .InvalidTrustAnchor "Unsupported collection Trust Anchor")
  | some jwks =>
    match collectSnapshot W (W.evidence anchor jwks) with
    | .ok snapshot => .ok snapshot
    | .error (.failed e) => .error e
    | .error _ => .error (federationError .TemporarilyUnavailable
        "Collection refresh could not be completed")

end OidFed
