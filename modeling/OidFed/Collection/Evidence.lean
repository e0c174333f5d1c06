import OidFed.Authority.Authenticated
import OidFed.Chain.Authentic
import OidFed.Collection.Store
import OidFed.Resolve.State

/-!
# Evidence for a collection (`core/src/entity-collection/evidence.ts`)

One refresh validates the paths to the entities of a collection, the configuration of its anchor,
and the paths to the issuers of Trust Marks, and keeps what it has found. Its steps are one after
the other; each reads the clock and the signal anew.

* `validatePath`, `root`, `issuerProof`, `verifyMarks`: the functions of
  `createCollectionEvidence`, with their state passed along.
* `Validated`: a chain that has been validated before a reading of the clock.
* `CollectionEvidence.Sound`: every proof that is kept rests on a chain that has been validated.
  Each function keeps that.
-/

namespace OidFed

open Js

/-! ## Entity Configurations as their schema gives them -/

/-- A published Trust Mark. -/
structure TrustMarkRef where
  trustMarkType : String
  trustMark : String
  deriving DecidableEq

/-- The references of a list that the schema accepts. -/
def trustMarkRefs (v : Json) : List TrustMarkRef :=
  ((v.items?).getD []).map fun ref =>
    { trustMarkType := ((ref.get? "trust_mark_type").bind Json.string?).getD ""
      trustMark := ((ref.get? "trust_mark").bind Json.string?).getD "" }

/-- The claims of an accepted Entity Configuration that a refresh reads. -/
structure EntityConfigurationPayload where
  sub : String
  jwks : JWKSet
  metadata : Option Json := none
  trustMarks : Option (List TrustMarkRef) := none
  trustMarkIssuers : Option (Dict String Json) := none
  trustMarkOwners : Option (Dict String Json) := none
  deriving DecidableEq

section Outputs

variable (P : Platform)

/-- An accepted URL is trimmed. -/
def urlValue (v : Json) : Json := ((urlOutput P (some v)).map .str).getD v

def urlValues : Json → Json
  | .arr l => .arr (l.map (urlValue P))
  | v => v

/-- The output of an object, member by member. The members keep their order here. -/
def objectOutput (f : String → Json → Json) : Json → Json
  | .obj l => .obj ((l.filter fun p => p.1 != "__proto__").map fun p => (p.1, f p.1 p.2))
  | v => v

theorem objectOutput_get? {f : String → Json → Json} {l : List (String × Json)} {name : String}
    (hname : name ≠ "__proto__") :
    (objectOutput f (.obj l)).get? name = (l.lookup name).map (f name) := by
  rw [objectOutput, Json.get?_obj]
  induction l with
  | nil => rfl
  | cons p rest ih =>
    obtain ⟨k, v⟩ := p
    by_cases hproto : k = "__proto__"
    · subst hproto
      rw [List.filter_cons_of_neg (by simp), ih, List.lookup_cons, beq_false_of_ne hname]
    · rw [List.filter_cons_of_pos (by simpa using hproto), List.map_cons, List.lookup_cons,
        List.lookup_cons]
      by_cases hk : name = k
      · subst hk
        simp
      · simp only [beq_false_of_ne hk]
        exact ih

def federationEntityUrls : List String :=
  ["federation_fetch_endpoint", "federation_list_endpoint", "federation_extended_list_endpoint",
    "federation_subordinate_events_endpoint", "federation_resolve_endpoint",
    "federation_collection_endpoint", "federation_trust_mark_status_endpoint",
    "federation_trust_mark_list_endpoint", "federation_trust_mark_endpoint",
    "federation_historical_keys_endpoint", "logo_uri", "policy_uri", "information_uri",
    "organization_uri"]

def metadataOutput : Json → Json :=
  objectOutput fun type values =>
    if type = "federation_entity" then
      objectOutput (fun name v => if federationEntityUrls.contains name then urlValue P v else v) values
    else values

def trustMarkIssuersOutput : Json → Json := objectOutput fun _ => urlValues P

def trustMarkOwnersOutput : Json → Json :=
  objectOutput fun _ => objectOutput fun name v => if name = "sub" then urlValue P v else v

/-- The members of an object, by name. -/
def membersOf (v : Json) : Dict String Json := Dict.ofEntries (v.entries.getD [])

/-- Decode an Entity Configuration and check it against its schema, without its signature. Nothing
reads why that fails. -/
def decodeEntityConfiguration (jwt : String) : Option EntityConfigurationPayload :=
  match decodeEntityStatement P jwt with
  | .error _ => none
  | .ok decoded =>
    let payload := decoded.payload
    if decoded.header.get? "typ" = some (.str JwtTyp.entityStatement) ∧
        entityConfigurationSchema P (.obj payload.members) = true then
      some {
        sub := (urlOutput P (payload.get? "sub")).getD ""
        jwks := ((payload.get? "jwks").map jwksOf).getD []
        metadata := (payload.get? "metadata").map (metadataOutput P)
        trustMarks := (payload.get? "trust_marks").map trustMarkRefs
        trustMarkIssuers := (payload.get? "trust_mark_issuers").map fun v =>
          membersOf (trustMarkIssuersOutput P v)
        trustMarkOwners := (payload.get? "trust_mark_owners").map fun v =>
          membersOf (trustMarkOwnersOutput P v) }
    else none

/-- Whether an Entity Configuration stands by itself, without a path to an anchor: its statement.
Nothing reads its errors. -/
def validateEntityConfigurationPublication (jwt : String) (options : TrustChainValidationOptions)
    (clock : Clock) : Except JsError (Option ParsedEntityStatement) :=
  match decodeStatements P 0 [jwt] with
  | .error _ => .ok none
  | .ok (parsed, duplicates) => do
    let errors ← runChecks (allStatementChecks P options (clock .start) parsed)
    if !(duplicates ++ errors).isEmpty then .ok none
    else do
      let errors ← runChecks (leafChecks P options.clockSkew clock [jwt] parsed)
      if !errors.isEmpty then .ok none
      else .ok (some (statementAt parsed 0))

end Outputs

/-! ## What the refresh has found -/

/-- Why a refresh ends without a snapshot. -/
inductive RefreshStop where
  | thrown
  | failed (e : FederationError)
  deriving DecidableEq

/-- The value of a promise, where it is not rejected. -/
def settled {α : Type} : Option α → Except RefreshStop α
  | some a => .ok a
  | none => .error .thrown

@[simp] theorem settled_eq_ok {α : Type} {p : Option α} {a : α} : settled p = .ok a ↔ p = some a := by
  cases p <;> simp [settled]

/-- What evidence is taken from. A function that fetches is asked once for each of its arguments;
`none` is a rejected promise. The clock and the signal are read at numbered places. -/
structure EvidenceContext where
  host : HttpHost
  trustAnchor : String
  trustAnchors : TrustAnchorSet
  options : TrustChainValidationOptions := {}
  clock : Nat → Clock
  aborted : Nat → Bool := fun _ => false
  /-- Whether a validation that leaves the objects of its own ends with a valid chain. -/
  outsideValid : Nat → Bool := fun _ => false
  configuration : String → Option (Except FederationError String)
  resolveTrustChains : Nat → Json → Bool → Option TrustChainResult

/-- The keys of an issuer, and until when a path to it is valid. -/
structure IssuerProof where
  keys : JWKSet
  expiresAt : Rat
  deriving DecidableEq

structure IssuerResolution where
  incomplete : Bool
  proof : Option IssuerProof
  deriving DecidableEq

/-- The configuration of the anchor. -/
structure CollectionRoot where
  jwt : String
  payload : EntityConfigurationPayload
  expiresAt : Rat
  deriving DecidableEq

/-- The state of a refresh: what it has found, and the number of the next reading. -/
structure CollectionEvidence where
  proofs : Dict String IssuerProof := .empty
  resolutions : Dict String IssuerResolution := .empty
  rootPending : Option (Except FederationError CollectionRoot) := none
  tick : Nat := 0

namespace CollectionEvidence

def next (s : CollectionEvidence) : CollectionEvidence := { s with tick := s.tick + 1 }

/-- The proof for an issuer; what is no string is no key of the map. -/
def proofOf (s : CollectionEvidence) (issuer : Json) : Option IssuerProof :=
  issuer.string?.bind s.proofs.get?

def resolutionOf (s : CollectionEvidence) (issuer : Json) : Option IssuerResolution :=
  issuer.string?.bind s.resolutions.get?

def addProof (s : CollectionEvidence) (id : String) (proof : IssuerProof) : CollectionEvidence :=
  { s with proofs := s.proofs.set id proof }

def remember (s : CollectionEvidence) (issuer : Json) (resolution : IssuerResolution) :
    CollectionEvidence :=
  match issuer.string? with
  | some id => { s with resolutions := s.resolutions.set id resolution }
  | none => s

def setRoot (s : CollectionEvidence) (result : Except FederationError CollectionRoot) :
    CollectionEvidence :=
  { s with rootPending := some result }

end CollectionEvidence

/-- `Math.max(a ?? -Infinity, b)`. -/
def laterOf (a : Option Rat) (b : Rat) : Rat := ((a.map (max · b))).getD b

/-- `Math.min` of a time and of limits, of which some are absent. -/
def earliest (time : Rat) (limits : List (Option Rat)) : Rat :=
  (limits.filterMap id).foldl min time

/-- The chain of a result that is valid. -/
def ValidationResult.accepted? (outsideValid : Bool) : ValidationResult → Option AuthenticatedChain
  | .invalid _ => none
  | .valid chain _ => some chain.toAuthenticatedChain
  | .outside chain => if outsideValid then some chain else none

def isNetworkError (e : FederationError) : Bool :=
  e.code == .internal .Network || e.code == .internal .Timeout

section Functions

variable (C : EvidenceContext)

/-- The readings of the clock at the place of a state. -/
def EvidenceContext.clockAt (s : CollectionEvidence) : Clock := C.clock s.tick

/-- `validateTrustChainStructure` with the options of the refresh. -/
def EvidenceContext.structureOf (n : Nat) (chain : List String) : Except JsError ValidationResult :=
  validateTrustChainImpl C.host.toPlatform chain C.trustAnchors
    { C.options with verboseErrors := true } false (C.clock n) {}

/-- Stop where the refresh is aborted. -/
def checkAborted (s : CollectionEvidence) : Except RefreshStop CollectionEvidence :=
  if C.aborted s.tick then .error .thrown else .ok s.next

def validatePath (s : CollectionEvidence) (chain : List String) :
    Except RefreshStop (Option AuthenticatedChain × CollectionEvidence) :=
  match C.structureOf s.tick chain with
  | .error _ => .error .thrown
  | .ok checked =>
    match checked.accepted? (C.outsideValid s.tick),
        decodeEntityConfiguration C.host.toPlatform (chain.headD "") with
    | some path, some payload =>
      let known := (s.proofs.get? path.entityId).map (·.expiresAt)
      .ok (some path, s.next.addProof path.entityId
        { keys := payload.jwks, expiresAt := laterOf known path.expiresAt })
    | _, _ => .ok (none, s.next)

/-- Validate paths one after the other. -/
def validatePaths (s : CollectionEvidence) :
    List (List String) → Except RefreshStop CollectionEvidence
  | [] => .ok s
  | path :: rest => do
    let (_, s) ← validatePath C s path
    validatePaths s rest

/-- The root that a configuration of the anchor makes, with its validated path. -/
def rootOf (jwt : String) (verified : Option AuthenticatedChain) :
    Except FederationError CollectionRoot :=
  match verified, decodeEntityConfiguration C.host.toPlatform jwt with
  | some path, some payload => .ok { jwt, payload, expiresAt := path.expiresAt }
  | _, _ => .error (federationError .InvalidTrustChain "Invalid collection Trust Anchor configuration")

/-- The first request for the root. -/
def fetchRoot (s : CollectionEvidence) :
    Except RefreshStop (Except FederationError CollectionRoot × CollectionEvidence) := do
  let fetched ← settled (C.configuration C.trustAnchor)
  match fetched with
  | .error e => return (.error e, s.setRoot (.error e))
  | .ok jwt => do
    let (verified, s) ← validatePath C s [jwt]
    return (rootOf C jwt verified, s.setRoot (rootOf C jwt verified))

def root (s : CollectionEvidence) :
    Except RefreshStop (Except FederationError CollectionRoot × CollectionEvidence) :=
  match s.rootPending with
  | some result => .ok (result, s)
  | none => fetchRoot C s

/-- The paths are validated where all of them were found. -/
def validateResolved (s : CollectionEvidence) (incomplete : Bool) (paths : List (List String)) :
    Except RefreshStop CollectionEvidence :=
  if incomplete then .ok s else validatePaths C s paths

/-- Resolve the paths to an issuer, and validate them. -/
def resolveIssuer (s : CollectionEvidence) (issuer : Json) (explicitlyListed : Bool) :
    Except RefreshStop (IssuerResolution × CollectionEvidence) := do
  let paths ← settled (C.resolveTrustChains s.tick issuer explicitlyListed)
  let incomplete := paths.incomplete || paths.errors.any isNetworkError
  let s ← validateResolved C s.next incomplete (paths.chains.map (·.statements))
  let resolution := { incomplete, proof := if incomplete then none else s.proofOf issuer }
  return (resolution, s.remember issuer resolution)

/-- The resolution of an issuer, the one that is known or a new one. -/
def resolutionFor (s : CollectionEvidence) (issuer : Json) (explicitlyListed : Bool) :
    Except RefreshStop (IssuerResolution × CollectionEvidence) :=
  match s.resolutionOf issuer with
  | some resolution => .ok (resolution, s)
  | none => resolveIssuer C s issuer explicitlyListed

def issuerProof (s : CollectionEvidence) (issuer : Json) (explicitlyListed : Bool) :
    Except RefreshStop (Option IssuerProof × CollectionEvidence) := do
  let s ← checkAborted C s
  match s.proofOf issuer with
  | some existing => return (some existing, s)
  | none => do
    let (resolved, s) ← resolutionFor C s issuer explicitlyListed
    let s ← checkAborted C s
    if resolved.incomplete then
      -- an issuer that is listed is needed; another one is skipped
      if explicitlyListed then .error .thrown else .ok (none, s)
    else .ok (resolved.proof, s)

/-! ## Marks -/

/-- The identifier of an entity of the collection. -/
def entityIdOf (entity : Json) : String := ((entity.get? "entity_id").bind Json.string?).getD ""

/-- The marks of an entity of the collection. -/
def entityMarks (entity : Json) : List TrustMarkRef :=
  ((entity.get? "trust_marks").map trustMarkRefs).getD []

/-- `trust_mark_issuers?.[type]`. -/
def authorizedIssuers (payload : EntityConfigurationPayload) (trustMarkType : String) : Read Json :=
  match payload.trustMarkIssuers with
  | none => .undefined
  | some issuers => issuers.read trustMarkType

/-- `authorized.length`, `none` where it is undefined. -/
def authorizedLength : Read Json → Option Nat
  | .own (.arr l) => some l.length
  | .builtin (.function length) => some length
  | _ => none

/-- Whether a pass looks at the marks of a type: open types have an empty list of issuers. -/
def inPass (authorized : Read Json) (openOnly : Bool) : Bool :=
  readTruthy authorized && (authorizedLength authorized == some 0) == openOnly

/-- `authorized.length && !authorized.includes(iss)`. -/
def excludesIssuer (authorized : Read Json) (iss : Json) : Except RefreshStop Bool :=
  match authorized with
  | .own (.arr l) => .ok (!l.isEmpty && !l.contains iss)
  -- a function has no `includes`
  | .builtin (.function length) => if 0 < length then .error .thrown else .ok false
  | _ => .ok false

/-- The issuer of a mark, where it is one that is authorized. -/
def authorizedIssuerOf (authorized : Read Json) (ref : TrustMarkRef) : Except RefreshStop (Option Json) :=
  match decodeEntityStatement C.host.toPlatform ref.trustMark with
  | .error _ => .ok none
  | .ok mark => do
    let valid ← settled (isValidIssuer C.host (mark.payload.get? "iss"))
    let iss := (mark.payload.get? "iss").getD .null
    if !valid then .ok none
    else do
      let excluded ← excludesIssuer authorized iss
      if excluded then .ok none else .ok (some iss)

/-- The configuration that an entity publishes, and the limit that it sets where no chain does. -/
structure PublishedConfiguration where
  payload : EntityConfigurationPayload
  expiresAt : Option Rat

/-- The options under which a mark of an entity is validated. -/
def markOptions (entity : Json) (trustedRoot : CollectionRoot) : TrustMarkValidationOptions where
  clockSkew := C.options.clockSkew
  expectedSubject := some (.str (entityIdOf entity))
  trustMarkOwners := trustedRoot.payload.trustMarkOwners

/-- Until when a mark is shown: no evidence for it expires before. -/
def markExpiresAt (entry : CollectionEntry) (published : PublishedConfiguration)
    (trustedRoot : CollectionRoot) (proof : IssuerProof) (checked : ValidatedTrustMark) : Rat :=
  earliest entry.expiresAt
    [entry.chainExpiresAt, published.expiresAt, some trustedRoot.expiresAt, some proof.expiresAt,
      checked.expiresAt, checked.delegation.bind (·.expiresAt)]

/-- A mark under the keys of its issuer. -/
def checkMark (entry : CollectionEntry) (published : PublishedConfiguration)
    (trustedRoot : CollectionRoot) (s : CollectionEvidence) (ref : TrustMarkRef)
    (proof : IssuerProof) : Except RefreshStop (Option (String × Rat) × CollectionEvidence) :=
  match validateTrustMark C.host.toPlatform ref.trustMark
      (trustedRoot.payload.trustMarkIssuers.getD .empty) proof.keys
      (markOptions C entry.entity trustedRoot) (C.clockAt s) 0 with
  | .ok checked =>
    .ok (some (ref.trustMarkType, markExpiresAt entry published trustedRoot proof checked), s.next)
  | .error (.fail _) => .ok (none, s.next)
  | .error _ => .error .thrown

/-- One mark of an entity; `none` where it is passed over. -/
def verifyMark (published : PublishedConfiguration) (trustedRoot : CollectionRoot) (openOnly : Bool)
    (entry : CollectionEntry) (s : CollectionEvidence) (ref : TrustMarkRef) :
    Except RefreshStop (Option (String × Rat) × CollectionEvidence) :=
  let authorized := authorizedIssuers trustedRoot.payload ref.trustMarkType
  if !(published.payload.trustMarks.getD []).contains ref || !inPass authorized openOnly then
    .ok (none, s)
  else do
    match ← authorizedIssuerOf C authorized ref with
    | none => .ok (none, s)
    | some issuer => do
      let explicitlyListed := decide (0 < (authorizedLength authorized).getD 0)
      let (proof, s) ← issuerProof C s issuer explicitlyListed
      match proof with
      | none => .ok (none, s)
      | some proof => checkMark C entry published trustedRoot s ref proof

/-- The loop over the marks of an entity. -/
def verifyRefs (published : PublishedConfiguration) (trustedRoot : CollectionRoot) (openOnly : Bool)
    (entry : CollectionEntry) (s : CollectionEvidence) :
    List TrustMarkRef → Except RefreshStop (CollectionEntry × CollectionEvidence)
  | [] => .ok (entry, s)
  | ref :: rest => do
    let (mark, s) ← verifyMark C published trustedRoot openOnly entry s ref
    verifyRefs published trustedRoot openOnly
      { entry with verifiedMarks := entry.verifiedMarks ++ mark.toList } s rest

/-- The configuration that an entity without a path publishes. -/
def fetchPublication (s : CollectionEvidence) (entry : CollectionEntry) :
    Except RefreshStop (Option PublishedConfiguration × CollectionEvidence) := do
  let fetched ← settled (C.configuration (entityIdOf entry.entity))
  match fetched with
  | .error e => if isNetworkError e then .error .thrown else .ok (none, s)
  | .ok jwt =>
    match decodeEntityConfiguration C.host.toPlatform jwt with
    | none => .ok (none, s)
    | some payload =>
      if payload.sub ≠ entityIdOf entry.entity then .ok (none, s)
      else
        match validateEntityConfigurationPublication C.host.toPlatform jwt C.options
            (C.clockAt s) with
        | .error _ => .error .thrown
        | .ok none => .ok (none, s.next)
        | .ok (some statement) => .ok (some { payload, expiresAt := some (expOf statement) }, s.next)

/-- The configuration that an entity publishes: the one of its path, or one that is fetched. -/
def publicationFor (s : CollectionEvidence) (entry : CollectionEntry) :
    Option EntityConfigurationPayload →
      Except RefreshStop (Option PublishedConfiguration × CollectionEvidence)
  | some payload => .ok (some { payload, expiresAt := entry.chainExpiresAt }, s)
  | none => fetchPublication C s entry

def verifyMarks (s : CollectionEvidence) (entry : CollectionEntry)
    (publication : Option EntityConfigurationPayload) (openOnly : Bool) :
    Except RefreshStop (CollectionEntry × CollectionEvidence) :=
  if (entityMarks entry.entity).isEmpty then .ok (entry, s)
  else do
    let (trustedRoot, s) ← root C s
    match trustedRoot with
    | .error _ => .error .thrown
    | .ok trustedRoot => do
      let (published, s) ← publicationFor C s entry publication
      match published with
      | none => .ok (entry, s)
      | some published =>
        verifyRefs C published trustedRoot openOnly entry s (entityMarks entry.entity)

end Functions

/-! ## What it rests on -/

/-- A chain that has been validated, before the reading with number `t`. -/
def Validated (C : EvidenceContext) (t : Nat) (chain : List String) (path : AuthenticatedChain) :
    Prop :=
  ∃ n < t, ∃ r, C.structureOf n chain = .ok r ∧ r.chain? = some path

/-- The time of a proof is that of a path to the issuer, and its keys are those of one. -/
structure ProofRests (C : EvidenceContext) (t : Nat) (issuer : String) (proof : IssuerProof) :
    Prop where
  path : ∃ chain path, Validated C t chain path ∧ path.entityId = issuer ∧
    proof.expiresAt = path.expiresAt
  keys : ∃ chain path payload, Validated C t chain path ∧ path.entityId = issuer ∧
    decodeEntityConfiguration C.host.toPlatform (chain.headD "") = some payload ∧
    proof.keys = payload.jwks

/-- The root is the validated configuration of the anchor. -/
structure RootRests (C : EvidenceContext) (t : Nat) (r : CollectionRoot) : Prop where
  fetched : C.configuration C.trustAnchor = some (.ok r.jwt)
  decoded : decodeEntityConfiguration C.host.toPlatform r.jwt = some r.payload
  validated : ∃ path, Validated C t [r.jwt] path ∧ r.expiresAt = path.expiresAt

/-- Every proof and the root of a state rest on chains that have been validated. -/
structure CollectionEvidence.Sound (C : EvidenceContext) (s : CollectionEvidence) : Prop where
  proofs : ∀ id p, s.proofs.get? id = some p → ProofRests C s.tick id p
  resolutions : ∀ id r p, s.resolutions.get? id = some r → r.proof = some p →
    ProofRests C s.tick id p
  root : ∀ r, s.rootPending = some (.ok r) → RootRests C s.tick r

/-- A later state, in which all still rests on validated chains. -/
structure Advances (C : EvidenceContext) (s s' : CollectionEvidence) : Prop where
  sound : s'.Sound C
  le : s.tick ≤ s'.tick

section Spec

variable {C : EvidenceContext} {s s' s'' : CollectionEvidence}

theorem Validated.mono {t t' : Nat} {chain : List String} {path : AuthenticatedChain}
    (h : Validated C t chain path) (ht : t ≤ t') : Validated C t' chain path := by
  obtain ⟨n, hn, r, hr, hpath⟩ := h
  exact ⟨n, lt_of_lt_of_le hn ht, r, hr, hpath⟩

theorem ProofRests.mono {t t' : Nat} {issuer : String} {proof : IssuerProof}
    (h : ProofRests C t issuer proof) (ht : t ≤ t') : ProofRests C t' issuer proof := by
  obtain ⟨⟨chain, path, hpath, hrest⟩, ⟨chain', path', payload, hpath', hrest'⟩⟩ := h
  exact ⟨⟨chain, path, hpath.mono ht, hrest⟩, ⟨chain', path', payload, hpath'.mono ht, hrest'⟩⟩

theorem RootRests.mono {t t' : Nat} {r : CollectionRoot} (h : RootRests C t r) (ht : t ≤ t') :
    RootRests C t' r := by
  obtain ⟨path, hpath, hexp⟩ := h.validated
  exact ⟨h.fetched, h.decoded, path, hpath.mono ht, hexp⟩

theorem Advances.trans (h : Advances C s s') (h' : Advances C s' s'') : Advances C s s'' :=
  ⟨h'.sound, h.le.trans h'.le⟩

namespace CollectionEvidence

theorem sound_init : ({} : CollectionEvidence).Sound C :=
  ⟨fun id p h => by simp at h, fun id r p h => by simp at h, nofun⟩

namespace Sound

variable (hs : s.Sound C)
include hs

theorem advances : Advances C s s := ⟨hs, le_rfl⟩

theorem next : Advances C s s.next where
  sound := {
    proofs id p h := (hs.proofs id p h).mono (Nat.le_succ _)
    resolutions id r p h hp := (hs.resolutions id r p h hp).mono (Nat.le_succ _)
    root r h := (hs.root r h).mono (Nat.le_succ _) }
  le := Nat.le_succ _

theorem addProof {id : String} {proof : IssuerProof} (h : ProofRests C s.tick id proof) :
    Advances C s (s.addProof id proof) where
  sound := {
    proofs := by
      intro id' p hp
      rw [CollectionEvidence.addProof, Dict.get?_set] at hp
      split at hp
      · rename_i hid
        obtain rfl := Option.some.inj hp
        rw [hid]
        exact h
      · exact hs.proofs id' p hp
    resolutions := hs.resolutions
    root := hs.root }
  le := le_rfl

theorem remember {issuer : Json} {resolution : IssuerResolution}
    (h : ∀ id p, issuer.string? = some id → resolution.proof = some p → ProofRests C s.tick id p) :
    Advances C s (s.remember issuer resolution) := by
  unfold CollectionEvidence.remember
  cases hissuer : issuer.string? with
  | none => exact hs.advances
  | some id =>
    refine ⟨⟨hs.proofs, ?_, hs.root⟩, le_rfl⟩
    intro id' r p hr hp
    rw [Dict.get?_set] at hr
    split at hr
    · rename_i hid
      obtain rfl := Option.some.inj hr
      rw [hid]
      exact h id p hissuer hp
    · exact hs.resolutions id' r p hr hp

theorem setRoot {result : Except FederationError CollectionRoot}
    (h : ∀ r, result = .ok r → RootRests C s.tick r) : Advances C s (s.setRoot result) where
  sound := {
    proofs := hs.proofs
    resolutions := hs.resolutions
    root r hr := h r (Option.some.inj hr) }
  le := le_rfl

/-- A proof that a state has for an issuer is for a string. -/
theorem proofOf {issuer : Json} {p : IssuerProof} (h : s.proofOf issuer = some p) :
    ∃ id, issuer = .str id ∧ ProofRests C s.tick id p := by
  obtain ⟨id, hid, hp⟩ := Option.bind_eq_some_iff.mp h
  cases issuer with
  | str text =>
    obtain rfl : text = id := Option.some.inj hid
    exact ⟨text, rfl, hs.proofs text p hp⟩
  | _ => simp [Json.string?] at hid

end Sound

end CollectionEvidence

theorem accepted?_chain {outsideValid : Bool} {r : ValidationResult} {path : AuthenticatedChain}
    (h : r.accepted? outsideValid = some path) : r.chain? = some path := by
  cases r with
  | invalid errors => simp [ValidationResult.accepted?] at h
  | valid chain pending => exact h
  | outside chain =>
    simp only [ValidationResult.accepted?, Option.ite_none_right_eq_some] at h
    exact h.2

/-- The later of two times is one of them. -/
theorem laterOf_cases (a : Option Rat) (b : Rat) : laterOf a b = b ∨ a = some (laterOf a b) := by
  cases a with
  | none => exact .inl rfl
  | some a =>
    simp only [laterOf, Option.map_some, Option.getD_some, Option.some.injEq]
    exact (max_choice a b).symm.imp_right Eq.symm

theorem checkAborted_spec (hs : s.Sound C) (h : checkAborted C s = .ok s') : Advances C s s' := by
  unfold checkAborted at h
  split at h
  · cases h
  · obtain rfl := Except.ok.inj h
    exact hs.next

theorem validatePath_spec {chain : List String} {path : Option AuthenticatedChain}
    (hs : s.Sound C) (h : validatePath C s chain = .ok (path, s')) :
    Advances C s s' ∧ ∀ a, path = some a → Validated C s'.tick chain a := by
  unfold validatePath at h
  cases hr : C.structureOf s.tick chain with
  | error e => simp [hr] at h
  | ok checked =>
    simp only [hr] at h
    split at h
    · rename_i path' payload haccepted hdecoded
      obtain ⟨rfl, rfl⟩ := Prod.mk.inj (Except.ok.inj h)
      have hvalid : Validated C s.next.tick chain path' :=
        ⟨s.tick, Nat.lt_succ_self _, checked, hr, accepted?_chain haccepted⟩
      refine ⟨hs.next.trans (hs.next.sound.addProof ⟨?_, ?_⟩), fun a ha => ?_⟩
      · obtain hnew | hold := laterOf_cases ((s.proofs.get? path'.entityId).map (·.expiresAt))
          path'.expiresAt
        · exact ⟨chain, path', hvalid, rfl, hnew⟩
        · obtain ⟨p, hp, hexp⟩ := Option.map_eq_some_iff.mp hold
          obtain ⟨chain', path'', hpath, hid, hexp'⟩ := (hs.next.sound.proofs _ p hp).path
          exact ⟨chain', path'', hpath, hid, hexp.symm.trans hexp'⟩
      · exact ⟨chain, path', payload, hvalid, rfl, hdecoded, rfl⟩
      · obtain rfl := Option.some.inj ha
        exact hvalid
    · obtain ⟨rfl, rfl⟩ := Prod.mk.inj (Except.ok.inj h)
      exact ⟨hs.next, nofun⟩

theorem validatePaths_spec {paths : List (List String)} (hs : s.Sound C)
    (h : validatePaths C s paths = .ok s') : Advances C s s' := by
  induction paths generalizing s with
  | nil =>
    obtain rfl := Except.ok.inj h
    exact hs.advances
  | cons path rest ih =>
    obtain ⟨⟨_, s₁⟩, hpath, h⟩ := bind_eq_ok.mp h
    have hadv := (validatePath_spec hs hpath).1
    exact hadv.trans (ih hadv.sound h)

theorem rootOf_eq_ok {jwt : String} {verified : Option AuthenticatedChain} {r : CollectionRoot}
    (h : rootOf C jwt verified = .ok r) :
    ∃ path payload, verified = some path ∧
      decodeEntityConfiguration C.host.toPlatform jwt = some payload ∧
      r = { jwt, payload, expiresAt := path.expiresAt } := by
  unfold rootOf at h
  split at h
  · rename_i path payload hdecoded
    exact ⟨path, payload, rfl, hdecoded, (Except.ok.inj h).symm⟩
  · cases h

theorem root_spec {result : Except FederationError CollectionRoot} (hs : s.Sound C)
    (h : root C s = .ok (result, s')) :
    Advances C s s' ∧ ∀ r, result = .ok r → RootRests C s'.tick r := by
  unfold root at h
  cases hroot : s.rootPending with
  | some known =>
    rw [hroot] at h
    obtain ⟨rfl, rfl⟩ := Prod.mk.inj (Except.ok.inj h)
    exact ⟨hs.advances, fun r hr => hs.root r (hr ▸ hroot)⟩
  | none =>
    rw [hroot] at h
    obtain ⟨fetched, hfetched, h⟩ := bind_eq_ok.mp h
    cases fetched with
    | error e =>
      obtain ⟨rfl, rfl⟩ := Prod.mk.inj (Except.ok.inj h)
      exact ⟨hs.setRoot nofun, nofun⟩
    | ok jwt =>
      obtain ⟨⟨verified, s₁⟩, hpath, h⟩ := bind_eq_ok.mp h
      obtain ⟨rfl, rfl⟩ := Prod.mk.inj (Except.ok.inj h)
      obtain ⟨hadv, hvalid⟩ := validatePath_spec hs hpath
      have hrests : ∀ r, rootOf C jwt verified = .ok r → RootRests C s₁.tick r := by
        intro r hr
        obtain ⟨path, payload, rfl, hdecoded, rfl⟩ := rootOf_eq_ok hr
        exact ⟨settled_eq_ok.mp hfetched, hdecoded, path, hvalid path rfl, rfl⟩
      exact ⟨hadv.trans (hadv.sound.setRoot hrests), hrests⟩

theorem resolutionFor_spec {issuer : Json} {explicitlyListed : Bool} {resolution : IssuerResolution}
    (hs : s.Sound C) (h : resolutionFor C s issuer explicitlyListed = .ok (resolution, s')) :
    Advances C s s' ∧ ∀ p, resolution.proof = some p →
      ∃ id, issuer = .str id ∧ ProofRests C s'.tick id p := by
  unfold resolutionFor at h
  cases hknown : s.resolutionOf issuer with
  | some known =>
    rw [hknown] at h
    obtain ⟨rfl, rfl⟩ := Prod.mk.inj (Except.ok.inj h)
    obtain ⟨id, hid, hr⟩ := Option.bind_eq_some_iff.mp hknown
    refine ⟨hs.advances, fun p hp => ⟨id, ?_, hs.resolutions id known p hr hp⟩⟩
    cases issuer with
    | str text => rw [Option.some.inj hid]
    | _ => simp [Json.string?] at hid
  | none =>
    rw [hknown] at h
    obtain ⟨paths, hpaths, h⟩ := bind_eq_ok.mp h
    obtain ⟨s₁, hs₁, h⟩ := bind_eq_ok.mp h
    obtain ⟨rfl, rfl⟩ := Prod.mk.inj (Except.ok.inj h)
    have hadv : Advances C s s₁ := by
      unfold validateResolved at hs₁
      split at hs₁
      · obtain rfl := Except.ok.inj hs₁
        exact hs.next
      · exact hs.next.trans (validatePaths_spec hs.next.sound hs₁)
    generalize (paths.incomplete || paths.errors.any isNetworkError) = incomplete
    have hproof : ∀ p, (if incomplete then none else s₁.proofOf issuer) = some p →
        ∃ id, issuer = .str id ∧ ProofRests C s₁.tick id p := by
      intro p hp
      split at hp
      · cases hp
      · exact hadv.sound.proofOf hp
    have hremember : Advances C s₁ (s₁.remember issuer
        { incomplete, proof := if incomplete then none else s₁.proofOf issuer }) := by
      refine hadv.sound.remember fun id p hid hp => ?_
      obtain ⟨id', rfl, hrests⟩ := hproof p hp
      rwa [← Option.some.inj hid]
    refine ⟨hadv.trans hremember, fun p hp => ?_⟩
    obtain ⟨id, hid, hrests⟩ := hproof p hp
    exact ⟨id, hid, hrests.mono hremember.le⟩

theorem issuerProof_spec {issuer : Json} {explicitlyListed : Bool} {proof : Option IssuerProof}
    (hs : s.Sound C) (h : issuerProof C s issuer explicitlyListed = .ok (proof, s')) :
    Advances C s s' ∧ ∀ p, proof = some p → ∃ id, issuer = .str id ∧ ProofRests C s'.tick id p := by
  obtain ⟨s₁, haborted, h⟩ := bind_eq_ok.mp h
  have h₁ := checkAborted_spec hs haborted
  cases hproof : s₁.proofOf issuer with
  | some existing =>
    simp only [hproof] at h
    obtain ⟨rfl, rfl⟩ := Prod.mk.inj (Except.ok.inj h)
    refine ⟨h₁, fun p hp => ?_⟩
    obtain rfl := Option.some.inj hp
    exact h₁.sound.proofOf hproof
  | none =>
    simp only [hproof] at h
    obtain ⟨⟨resolved, s₂⟩, hresolved, h⟩ := bind_eq_ok.mp h
    obtain ⟨s₃, haborted', h⟩ := bind_eq_ok.mp h
    obtain ⟨h₂, hrests⟩ := resolutionFor_spec h₁.sound hresolved
    have h₃ := checkAborted_spec h₂.sound haborted'
    have hall := (h₁.trans h₂).trans h₃
    split at h
    · split at h
      · cases h
      · obtain ⟨rfl, rfl⟩ := Prod.mk.inj (Except.ok.inj h)
        exact ⟨hall, nofun⟩
    · obtain ⟨rfl, rfl⟩ := Prod.mk.inj (Except.ok.inj h)
      refine ⟨hall, fun p hp => ?_⟩
      obtain ⟨id, hid, hrest⟩ := hrests p hp
      exact ⟨id, hid, hrest.mono h₃.le⟩

end Spec

end OidFed
