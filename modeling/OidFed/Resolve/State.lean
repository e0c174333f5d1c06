import OidFed.Jose
import OidFed.Js.Utf16
import OidFed.Lib.ForkJoin
import OidFed.Lib.System
import OidFed.Resolve.Limiter

/-!
# Discovery of trust chains (`core/src/trust-chain/resolve.ts`, `fetch.ts`)

`resolveTrustChains` walks the `authority_hints` of the leaf upwards. Each hint is a branch of its
own; the branches share the budget of fetches, the limiter, and the lists of chains and errors.

* `FetchCall`, `FetchOutcome`: a fetch, and how it settles.
* `Level`: a call of `buildChains`, with the hints that it has kept. `Branch`: one of its hints.
* `Resolution`: the shared variables, and all branches by their paths.
* `enterHint`, `resume`, `settleFetch`, `configurationFetched`, `statementFetched`, `joinBranches`:
  the code of a branch between two places where it waits. `leafFetched`, `joinLeaf`, `finish`: the
  code around them.

Settled branches remember how they ended, and errors which branch has reported them.
-/

namespace OidFed

open Js ForkJoin

structure ResolutionOptions where
  maxChainDepth : Nat := 8
  maxAuthorityHints : Nat := 10
  maxConcurrentFetches : ℕ+ := 6
  maxTotalFetches : Nat := 50
  /-- `false` where it throws. -/
  authorityHintFilter : Option (Url → String → Bool) := none

structure ResolutionHost extends Platform where
  /-- The message of a `TypeError`, which is up to the engine. -/
  typeErrorMessage : String

/-- Why a promise is rejected; `thrown` has the message of an `Error`. -/
inductive Reason where
  | typeError
  | aborted
  | thrown (message : Option String)
  deriving DecidableEq

def Reason.description (host : ResolutionHost) : Reason → String
  | typeError => host.typeErrorMessage
  | aborted => "Operation aborted"
  | thrown message => message.getD "Unknown error during chain resolution"

/-! ## Fetches -/

inductive FetchCall where
  | entityConfiguration (entityId : Json)
  | subordinateStatement (fetchEndpoint : Json) (subject issuer : String)
  deriving DecidableEq

inductive FetchOutcome where
  | returned (result : Except FederationError String)
  | rejected (reason : Reason)
  deriving DecidableEq

/-- `new URL(value)`. -/
def urlOf (host : ResolutionHost) (value : Json) : Option Url :=
  (value.toText host.numberText).bind host.parseUrl

/-- `fetchEntityConfiguration` and `fetchSubordinateStatement`, with what the cache and the network
answer: an identifier that is no string and an endpoint that is no URL are `TypeError`s. -/
def FetchCall.outcome (host : ResolutionHost) : FetchCall → FetchOutcome → FetchOutcome
  | .entityConfiguration (.str _), answer => answer
  | .entityConfiguration _, _ => .rejected .typeError
  | .subordinateStatement fetchEndpoint _ _, answer =>
    if (urlOf host fetchEndpoint).isNone then .rejected .typeError else answer

/-! ## Payloads -/

def authorityHints (payload : Payload) : Option Json := payload.get? "authority_hints"

/-- `!hints || hints.length === 0`. -/
def lacksHints : Option Json → Bool
  | none => true
  | some (.arr items) => items.isEmpty
  | some (.obj members) => Json.strictEq (members.lookup "length") (some (.num 0))
  | some v => !v.truthy

/-- `metadata?.federation_entity?.federation_fetch_endpoint`, if it is truthy. -/
def fetchEndpoint (payload : Payload) : Option Json :=
  (((payload.get? "metadata").bind (·.get? "federation_entity")).bind
    (·.get? "federation_fetch_endpoint")).filter Json.truthy

/-- The statement of an entity about itself. -/
def ParsedEntityStatement.IsOf (es : ParsedEntityStatement) (entityId : String) : Prop :=
  es.payload.get? "iss" = some (.str entityId) ∧ es.payload.get? "sub" = some (.str entityId)

structure TrustChain where
  statements : List String
  entityId : String
  trustAnchorId : String
  /-- `none` for `NaN`. -/
  expiresAt : Option Rat
  deriving DecidableEq

structure TrustChainResult where
  chains : List TrustChain
  errors : List FederationError
  incomplete : Bool := false
  deriving DecidableEq

/-- `Math.min` of the `exp` claims, which may be any values. -/
def unverifiedExpiration (host : ResolutionHost) (parsed : List ParsedEntityStatement) :
    Except Reason (Option Rat) :=
  if parsed.any fun s => (host.text (s.payload.get? "exp")).isNone then .error .typeError
  else
    let numbers := parsed.map fun s =>
      match s.payload.get? "exp" with
      | none => none
      | some (.num q) => some q
      | some v => host.toNumber v
    .ok (if numbers.all Option.isSome then numbers.reduceOption.min? else none)

/-! ## Branches -/

/-- A call of `buildChains`, with the hints that it has kept. -/
structure Level where
  entityId : String
  chainSoFar : List String
  visited : List String
  depth : Nat
  hints : List Json
  deriving DecidableEq

/-- What a branch waits for: a configuration, or a statement once it has the configuration. -/
inductive Work where
  | configuration
  | statement (configuration : String) (decoded : ParsedEntityStatement) (fetchEndpoint : Json)
  deriving DecidableEq

/-- How a branch has ended. -/
inductive BranchEnd where
  | looped
  | overBudget
  | failed (error : FederationError)
  | noEndpoint
  | noHints
  | completed (chain : TrustChain)
  /-- At a Trust Anchor, with a statement that cannot be decoded. -/
  | dropped
  /-- After `buildChains` for its own hints; `none` if that returned at once. -/
  | recursed (level : Option Level)
  | rejected (reason : Reason)
  deriving DecidableEq

inductive BranchPhase where
  | entering
  | waiting (work : Work)
  | fetching (work : Work)
  | answered (work : Work) (outcome : FetchOutcome)
  | recursing (level : Level)
  | ended (how : BranchEnd)
  deriving DecidableEq

structure Branch where
  level : Level
  hint : Json
  phase : BranchPhase := .entering
  deriving DecidableEq

/-- A hint whose configuration has been fetched is a string. -/
def Branch.issuer (b : Branch) : String := b.hint.string?.getD ""

def Branch.call (b : Branch) : Work → FetchCall
  | .configuration => .entityConfiguration b.hint
  | .statement _ _ fetchEndpoint => .subordinateStatement fetchEndpoint b.level.entityId b.issuer

/-- Where `resolveTrustChains` is, outside of the branches. -/
inductive RootPhase where
  | start
  | fetching
  | answered (outcome : FetchOutcome)
  | building
  | built
  | returned (result : TrustChainResult)
  | rejected (reason : Reason)
  deriving DecidableEq

structure Resolution where
  remaining : Nat
  chains : List TrustChain := []
  errors : List (NodePath × FederationError) := []
  incomplete : Bool := false
  /-- Whether the signal is aborted. -/
  aborted : Bool := false
  limiter : Limiter NodePath := {}
  branches : Dict NodePath Branch := .empty
  /-- The call of `buildChains` for the leaf. -/
  root : Option Level := none
  phase : RootPhase := .start
  /-- The fetches that have been started, with the depth from which they were. -/
  started : List (Nat × FetchCall) := []

namespace Resolution

section Code

variable (host : ResolutionHost) (anchors : TrustAnchorSet) (options : ResolutionOptions)
  (S : Resolution)

def chainError (description : String) : FederationError :=
  internalError .TrustChainInvalid description

def report (p : NodePath) (error : FederationError) : Resolution :=
  { S with errors := S.errors ++ [(p, error)] }

def setPhase (p : NodePath) (b : Branch) (phase : BranchPhase) : Resolution :=
  { S with branches := S.branches.set p { b with phase := phase } }

def outOfBudget (p : NodePath) : Resolution :=
  { S with incomplete := true }.report p (chainError "Fetch budget exhausted")

/-- The call of the limiter, up to where it waits. -/
def callLimiter (p : NodePath) (b : Branch) (work : Work) : Resolution :=
  if S.aborted then S.setPhase p b (.ended (.rejected .aborted))
  else { S with limiter := S.limiter.acquire options.maxConcurrentFetches p }.setPhase p b
    (.waiting work)

/-! ### `buildChains` -/

/-- The hints within the limit that the filter keeps. -/
def keptHints (entityId : String) (items : List Json) : List Json :=
  let filteredHints := items.take options.maxAuthorityHints
  match options.authorityHintFilter with
  | none => filteredHints
  | some keep => filteredHints.filter fun hint =>
      match urlOf host hint with
      | none => false
      | some url => keep url entityId

/-- `currentHints.length > maxHints`. -/
def checkHintLimit (p : NodePath) (length : Nat) : Resolution :=
  if options.maxAuthorityHints < length then
    { S with incomplete := true }.report p
      (chainError s!"Max authority hints ({options.maxAuthorityHints}) exceeded")
  else S

/-- `buildChains` up to where it waits for its branches; `none` if it returns at once. -/
def buildChains (p : NodePath) (entityId : String) (currentHints : Json)
    (chainSoFar visited : List String) (depth : Nat) : Resolution × Except Reason (Option Level) :=
  if options.maxChainDepth < depth then
    ({ S with incomplete := true }.report p
      (chainError s!"Max chain depth ({options.maxChainDepth}) exceeded"), .ok none)
  else if S.aborted then ({ S with incomplete := true }, .ok none)
  else
    match currentHints with
    | .arr items =>
      let level : Level :=
        { entityId, chainSoFar, visited, depth, hints := keptHints host options entityId items }
      let S := S.checkHintLimit options p items.length
      ({ S with branches := fork S.branches p (level.hints.map fun hint => { level, hint }) },
        .ok (some level))
    -- a string can be sliced but not mapped, and other values cannot be sliced
    | .str text => (S.checkHintLimit options p (utf16 text).length, .error .typeError)
    | _ => (S, .error .typeError)

/-- The first part of a branch. -/
def enterHint (p : NodePath) (b : Branch) : Resolution :=
  if b.hint.string?.any b.level.visited.contains then
    (S.report p (internalError .LoopDetected
      (s!"Loop detected: '" ++ b.issuer ++ "' already in chain"))).setPhase p b (.ended .looped)
  else if S.remaining = 0 then (S.outOfBudget p).setPhase p b (.ended .overBudget)
  else { S with remaining := S.remaining - 1 }.callLimiter options p b .configuration

/-- A call of the limiter resumes with a slot. -/
def resume (p : NodePath) (b : Branch) (work : Work) : Resolution :=
  if S.aborted then
    { S with limiter := S.limiter.refuse p }.setPhase p b (.ended (.rejected .aborted))
  else
    { S with
      limiter := S.limiter.resume p
      started := S.started ++ [(b.level.depth, b.call work)] }.setPhase p b (.fetching work)

/-- A fetch settles, and gives its slot back. -/
def settleFetch (p : NodePath) (b : Branch) (work : Work) (answer : FetchOutcome) : Resolution :=
  { S with limiter := S.limiter.finish p }.setPhase p b
    (.answered work ((b.call work).outcome host answer))

/-- A branch goes on with its configuration. -/
def configurationFetched (p : NodePath) (b : Branch) : FetchOutcome → Resolution
  | .rejected reason => S.setPhase p b (.ended (.rejected reason))
  | .returned (.error e) => (S.report p e).setPhase p b (.ended (.failed e))
  | .returned (.ok configuration) =>
    match decodeEntityStatement host.toPlatform configuration with
    | .error e => (S.report p e).setPhase p b (.ended (.failed e))
    | .ok decoded =>
      match fetchEndpoint decoded.payload with
      | none =>
        (S.report p (chainError ("Entity '" ++ b.issuer ++
          "' has no federation_fetch_endpoint in metadata"))).setPhase p b (.ended .noEndpoint)
      | some endpoint =>
        if S.remaining = 0 then (S.outOfBudget p).setPhase p b (.ended .overBudget)
        else { S with remaining := S.remaining - 1 }.callLimiter options p b
          (.statement configuration decoded endpoint)

/-- A branch that has come to a Trust Anchor. -/
def anchorReached (p : NodePath) (b : Branch) (leaf configuration statement : String) : Resolution :=
  let fullChain := b.level.chainSoFar ++ [statement, configuration]
  match fullChain.mapM (decodeEntityStatement host.toPlatform) with
  | .error _ => S.setPhase p b (.ended .dropped)
  | .ok parsed =>
    match unverifiedExpiration host parsed with
    | .error reason => S.setPhase p b (.ended (.rejected reason))
    | .ok expiresAt =>
      let chain : TrustChain :=
        { statements := fullChain, entityId := leaf, trustAnchorId := b.issuer, expiresAt }
      { S with chains := S.chains ++ [chain] }.setPhase p b (.ended (.completed chain))

/-- A branch goes on with its statement. -/
def statementFetched (leaf : String) (p : NodePath) (b : Branch) (configuration : String)
    (decoded : ParsedEntityStatement) : FetchOutcome → Resolution
  | .rejected reason => S.setPhase p b (.ended (.rejected reason))
  | .returned (.error e) => (S.report p e).setPhase p b (.ended (.failed e))
  | .returned (.ok statement) =>
    if (anchors.get? b.issuer).isSome then
      S.anchorReached host p b leaf configuration statement
    else
      match (authorityHints decoded.payload).filter fun v => !lacksHints (some v) with
      | none =>
        (S.report p (chainError ("Entity '" ++ b.issuer ++
          "' has no authority_hints and is not a trust anchor"))).setPhase p b (.ended .noHints)
      | some hints =>
        let (S, built) := S.buildChains host options p b.issuer hints
          (b.level.chainSoFar ++ [statement]) (b.level.visited ++ [b.issuer]) (b.level.depth + 1)
        match built with
        | .error reason => S.setPhase p b (.ended (.rejected reason))
        | .ok none => S.setPhase p b (.ended (.recursed none))
        | .ok (some level) => S.setPhase p b (.recursing level)

def continueBranch (leaf : String) (p : NodePath) (b : Branch) (work : Work) (outcome : FetchOutcome) :
    Resolution :=
  match work with
  | .configuration => S.configurationFetched host options p b outcome
  | .statement configuration decoded _ =>
    S.statementFetched host anchors options leaf p b configuration decoded outcome

/-! ### After `Promise.allSettled` -/

/-- How a branch has ended, if it has. -/
def endOf (p : NodePath) : Option BranchEnd :=
  match S.branches.get? p with
  | some ⟨_, _, .ended how⟩ => some how
  | _ => none

/-- All branches of a level have ended. -/
def AllSettled (p : NodePath) (level : Level) : Prop :=
  ∀ i < level.hints.length, (S.endOf (i :: p)).isSome = true

instance (p : NodePath) (level : Level) : Decidable (S.AllSettled p level) :=
  inferInstanceAs (Decidable (∀ i < level.hints.length, (S.endOf (i :: p)).isSome = true))

/-- The error for a branch that was rejected. -/
def rejection (p : NodePath) : Option (NodePath × FederationError) :=
  match S.endOf p with
  | some (.rejected reason) =>
    some (p, internalError (if S.aborted then .Timeout else .Network) (reason.description host))
  | _ => none

def collectRejections (p : NodePath) (level : Level) : Resolution :=
  let rejections := (List.range level.hints.length).filterMap fun i => S.rejection host (i :: p)
  { S with
    incomplete := S.incomplete || (S.aborted && !rejections.isEmpty)
    errors := S.errors ++ rejections }

/-- The branches of a branch have settled. -/
def joinBranches (p : NodePath) (b : Branch) (level : Level) : Resolution :=
  (S.collectRejections host p level).setPhase p b (.ended (.recursed (some level)))

/-! ### `resolveTrustChains` -/

def returnResult (result : TrustChainResult) : Resolution := { S with phase := .returned result }

def begin (leaf : String) : Resolution :=
  if S.remaining = 0 then
    S.returnResult { chains := [], errors := [chainError "Fetch budget exhausted"], incomplete := true }
  else
    { S with
      remaining := S.remaining - 1
      started := S.started ++ [(0, .entityConfiguration (.str leaf))]
      phase := .fetching }

/-- The function goes on with the leaf's configuration. -/
def leafFetched (leaf : String) : FetchOutcome → Resolution
  | .rejected reason => { S with phase := .rejected reason }
  | .returned (.error e) => S.returnResult { chains := [], errors := [e], incomplete := S.aborted }
  | .returned (.ok configuration) =>
    match decodeEntityStatement host.toPlatform configuration with
    | .error e => S.returnResult { chains := [], errors := [e] }
    | .ok decoded =>
      let iss := decoded.payload.get? "iss"
      let sub := decoded.payload.get? "sub"
      if !Json.strictEq iss sub || !Json.strictEq iss (some (.str leaf)) then
        match host.text iss, host.text sub with
        | some issText, some subText => S.returnResult { chains := [], errors := [chainError
            (s!"Leaf EC identity mismatch: iss=" ++ issText ++ ", sub=" ++ subText ++
              ", expected=" ++ leaf)] }
        | _, _ => { S with phase := .rejected .typeError }
      else
        match (authorityHints decoded.payload).filter fun v => !lacksHints (some v) with
        | none =>
          if (anchors.get? leaf).isSome then
            match unverifiedExpiration host [decoded] with
            | .error reason => { S with phase := .rejected reason }
            | .ok expiresAt => S.returnResult { errors := [], chains :=
                [{ statements := [configuration], entityId := leaf, trustAnchorId := leaf, expiresAt }] }
          else S.returnResult { chains := [], errors := [chainError
            "Leaf has no authority_hints and is not a trust anchor"] }
        | some hints =>
          let (S, built) := S.buildChains host options [] leaf hints [configuration] [leaf] 1
          match built with
          | .error reason => { S with phase := .rejected reason }
          | .ok none => { S with phase := .built }
          | .ok (some level) => { S with root := some level, phase := .building }

/-- The branches of the leaf have settled. -/
def joinLeaf (level : Level) : Resolution :=
  { S.collectRejections host [] level with phase := .built }

def finish : Resolution :=
  S.returnResult { chains := S.chains, errors := S.errors.map Prod.snd
                   incomplete := S.incomplete || S.aborted }

end Code

end Resolution

end OidFed
