import OidFed.Chain.Shape
import OidFed.Constraints
import OidFed.Policy.Apply

/-!
# Metadata of a chain (`trust-chain/validate.ts`, metadata resolution)

* `publishedMetadata`: the leaf's metadata with its immediate superior's written over it.
* `constraintsLoop`: every statement's constraints are checked, and its allowed entity types
  restrict the metadata.
* `resolveChainMetadata`: the merged policy applied to it. A stage may add the values of a context
  before, and may set aside the policies of fields that are absent.
-/

namespace OidFed

open Js

/-! ## Reading the claims -/

/-- An object of objects. -/
def metadataOf (v : Option Json) : FederationMetadata :=
  Dict.ofEntries ((objectEntries v).map fun t => (t.1, Dict.ofEntries t.2.fields))

def policyOf (v : Json) : ResolvedMetadataPolicy :=
  Dict.ofEntries (v.fields.map fun t =>
    (t.1, Dict.ofEntries (t.2.fields.map fun p => (p.1, Dict.ofEntries p.2.fields))))

/-- What the merge of policies reads of a statement. -/
def policyStatement (es : ParsedEntityStatement) : PolicyStatement where
  metadataPolicy := (es.payload.get? "metadata_policy").map policyOf
  metadataPolicyCrit := ((es.payload.get? "metadata_policy_crit").bind stringItems).getD []

/-- The statements between the leaf and a trailing Entity Configuration of the anchor. -/
def subordinateStatements (parsed : List ParsedEntityStatement) : List ParsedEntityStatement :=
  match parsed.getLast? with
  | some last => if isEC last.payload then parsed.dropLast.tail else parsed.tail
  | none => []

/-! ## Superior metadata and constraints -/

/-- An entity type of the superior's metadata, written over one that is there. -/
def mergeSuperiorEntityType (entityType : String) (params : EntityMetadata)
    (cur : Option EntityMetadata) : Except Stop (Option EntityMetadata) :=
  match readOr cur entityType with
  | .own existingMetadata => do return some (← assignMembers params existingMetadata)
  | .undefined => .ok cur
  | .builtin _ => if params.members.isEmpty then .ok cur else .error .outside

/-- The leaf's metadata with that of its immediate superior written over it. -/
def publishedMetadata (leaf : ParsedEntityStatement)
    (immediateSuperior : Option ParsedEntityStatement) : Except Stop FederationMetadata :=
  Dict.updateM mergeSuperiorEntityType
    (metadataOf (immediateSuperior.bind fun ss => ss.payload.get? "metadata")).members
    (metadataOf (leaf.payload.get? "metadata"))

/-- The constraints that a statement carries. -/
def constraintsOf (es : ParsedEntityStatement) : Option TrustChainConstraints :=
  (es.payload.get? "constraints").map TrustChainConstraints.ofJson

/-- The entity types that a statement allows, where it restricts them. -/
def allowedEntityTypesOf (es : ParsedEntityStatement) : Option (List String) :=
  (constraintsOf es).bind TrustChainConstraints.allowedEntityTypes

/-- Restrict metadata to the entity types that a statement allows. -/
def restrictEntityTypes (metadata : FederationMetadata) (es : ParsedEntityStatement) :
    FederationMetadata :=
  match allowedEntityTypesOf es with
  | some allowed => applyAllowedEntityTypes allowed metadata
  | none => metadata

section Constraints

variable (P : Platform) (parsed : List ParsedEntityStatement)

/-- The error of the constraints of the statement at index `j`, if any. -/
def constraintErrors (j : Nat) (es : ParsedEntityStatement) : Check :=
  match constraintsOf es with
  | none => .ok []
  | some constraints => do
    match ← checkConstraints P constraints j parsed with
    | none => return []
    | some e => return [{ code := .ConstraintViolation, message := e.description
                          statementIndex := some j, checkNumber := some 16 }]

/-- The loop over the statements above the leaf; `rest` are those from index `j` on. -/
def constraintsLoop (j : Nat) (rest : List ParsedEntityStatement) (metadata : FederationMetadata) :
    Except JsError (List ValidationError × FederationMetadata) :=
  match rest with
  | [] => .ok ([], metadata)
  | es :: rest => do
    let here ← constraintErrors P parsed j es
    let (errors, metadata) ← constraintsLoop (j + 1) rest (restrictEntityTypes metadata es)
    return (here ++ errors, metadata)

end Constraints

/-! ## Policies, in stages -/

structure ContextualMetadataClaim where
  entityType : String
  parameter : String
  deriving DecidableEq, Repr

/-- How the policies of a chain are merged. -/
abbrev PolicyMerge :=
  List PolicyStatement → MetadataPolicyOptions → Except Stop ResolvedMetadataPolicy

/-- What a stage of validation sets aside, and what it adds; `merge` is `resolveMetadataPolicy`, with what
it finds on `Object.prototype`. -/
structure MetadataStage where
  deferred : List ContextualMetadataClaim := []
  context : Dict String EntityMetadata := .empty
  merge : PolicyMerge := @resolveMetadataPolicy

/-- A value of the context, where the metadata has none of its own. -/
def addContextParameter (parameter : String) (value : Json) (cur : Option Json) :
    Except Stop (Option Json) :=
  match readOr cur parameter with
  | .undefined => .ok (some value)
  | _ => .ok cur

/-- The values that a context has for an entity type of the metadata. -/
def addContextEntityType (entityType : String) (values : EntityMetadata)
    (cur : Option EntityMetadata) : Except Stop (Option EntityMetadata) :=
  match readOr cur entityType with
  | .own params => do
    return some (← Dict.updateM addContextParameter values.members params)
  | .undefined => .ok cur
  | .builtin _ => if values.members.isEmpty then .ok cur else .error .outside

def addContext (context : Dict String EntityMetadata) (metadata : FederationMetadata) :
    Except Stop FederationMetadata :=
  Dict.updateM addContextEntityType context.members metadata

/-- Set the policy of a claim aside, where it has one and the metadata has no value. -/
def deferClaim (metadata : FederationMetadata)
    (policies : ResolvedMetadataPolicy × List ContextualMetadataClaim)
    (claim : ContextualMetadataClaim) :
    Except Stop (ResolvedMetadataPolicy × List ContextualMetadataClaim) :=
  match metadata.read claim.entityType with
  | .undefined => .ok policies
  -- the merged policies have no such type of their own: both reads give the same
  | .builtin _ => .ok policies
  | .own params =>
    match params.read claim.parameter with
    | .own _ => .ok policies
    | .builtin _ => .ok policies
    | .undefined =>
      match policies.1.read claim.entityType with
      | .undefined => .ok policies
      | .builtin _ => .error .outside
      | .own stated =>
        if (stated.get? claim.parameter).isSome then
          .ok (policies.1.set claim.entityType (stated.erase claim.parameter),
            policies.2 ++ [claim])
        else .ok policies

def deferClaims (metadata : FederationMetadata) (policy : ResolvedMetadataPolicy)
    (deferred : List ContextualMetadataClaim) :
    Except Stop (ResolvedMetadataPolicy × List ContextualMetadataClaim) :=
  deferred.foldlM (deferClaim metadata) (policy, [])

/-- The metadata of a chain, with the errors found on the way and the claims set aside. -/
structure ResolvedChainMetadata where
  errors : List ValidationError := []
  resolvedMetadata : FederationMetadata
  pending : List ContextualMetadataClaim := []

def policyStageError (code : InternalErrorCode) (checkNumber : Nat) (e : FederationError) :
    ValidationError :=
  { code, message := e.description, checkNumber := some checkNumber }

section Resolve

variable (P : Platform)

/-- The policies of the Subordinate Statements, merged and applied. -/
def resolveChainMetadata (statements : List ParsedEntityStatement)
    (options : MetadataPolicyOptions) (stage : MetadataStage) (metadata : FederationMetadata) :
    Except Stop ResolvedChainMetadata :=
  if statements.isEmpty then .ok { resolvedMetadata := metadata }
  else
    match stage.merge (statements.map policyStatement) options with
    | .error (.fail e) =>
      .ok { errors := [policyStageError .MetadataPolicyError 19 e], resolvedMetadata := metadata }
    | .error stop => .error stop
    | .ok merged =>
      if merged.members.isEmpty then .ok { resolvedMetadata := metadata }
      else do
        let metadata ← addContext stage.context metadata
        let (policy, pending) ← deferClaims metadata merged stage.deferred
        match applyMetadataPolicy P.numberText metadata policy none options with
        | .error (.fail e) =>
          return { errors := [policyStageError .MetadataPolicyViolation 24 e]
                   resolvedMetadata := metadata, pending }
        | .error stop => .error stop
        | .ok resolvedMetadata => return { resolvedMetadata, pending }

end Resolve

end OidFed
