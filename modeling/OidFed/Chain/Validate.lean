import OidFed.Chain.Marks
import OidFed.Chain.Metadata

/-!
# Validation of a Trust Chain (`trust-chain/validate.ts`)

`validateTrustChainImpl` decodes the statements, checks each of them, then the links between them,
and returns early where an error was found; then it resolves metadata and validates Trust Marks.
`validateTrustChain`, `prepareTrustChainValidation` and `completeTrustChainValidation` are its
callers. A run is not cancelled: its signal is never aborted.
-/

namespace OidFed

open Js

/-- What the checks before metadata resolution establish. -/
structure AuthenticatedChain where
  statements : List ParsedEntityStatement
  entityId : String
  trustAnchorId : String
  expiresAt : Rat

structure ValidatedTrustChain extends AuthenticatedChain where
  resolvedMetadata : FederationMetadata
  trustMarks : List ValidatedTrustMark

/-- How validation ends. After `outside` the run goes on with objects that the whole program
shares, so that its metadata and Trust Marks depend on more than its arguments; the chain is the
one that it may yet return as valid. -/
inductive ValidationResult where
  | invalid (errors : List ValidationError)
  | valid (chain : ValidatedTrustChain) (pending : List ContextualMetadataClaim)
  | outside (chain : AuthenticatedChain)

/-- The chain that a result is about. -/
def ValidationResult.chain? : ValidationResult → Option AuthenticatedChain
  | invalid _ => none
  | valid chain _ => some chain.toAuthenticatedChain
  | outside chain => some chain

/-- The chain that a run returns as valid. -/
def validChain? : Except JsError ValidationResult → Option ValidatedTrustChain
  | .ok (.valid chain _) => some chain
  | _ => none

theorem validChain?_eq_some {r : Except JsError ValidationResult} {v : ValidatedTrustChain} :
    validChain? r = some v ↔ ∃ pending, r = .ok (.valid v pending) := by
  unfold validChain?
  split
  · simp
  · rename_i hnot
    simp only [reduceCtorEq, false_iff, not_exists]
    exact fun pending hr => hnot v pending hr

theorem exists_valid {r : Except JsError ValidationResult} {p : ValidatedTrustChain → Bool}
    (h : (validChain? r).any p = true) :
    ∃ v pending, r = .ok (.valid v pending) ∧ p v = true := by
  obtain ⟨v, hv, hp⟩ := (Option.any_eq_true _ _).mp h
  obtain ⟨pending, hr⟩ := validChain?_eq_some.mp hv
  exact ⟨v, pending, hr, hp⟩

/-- The time at which a statement expires. -/
def expOf (es : ParsedEntityStatement) : Rat := (es.payload.number? "exp").getD 0

/-- The earliest expiration across all statements in a chain. -/
def calculateChainExpiration (chain : List ParsedEntityStatement) : Rat :=
  ((chain.map expOf).min?).getD 0

/-- The result of errors: a single one that says nothing, unless they are asked for. -/
def failed (options : TrustChainValidationOptions) (errors : List ValidationError) :
    ValidationResult :=
  .invalid (if options.verboseErrors then errors
    else [{ code := .TrustChainInvalid, message := "Trust chain validation failed" }])

section Validate

variable (P : Platform)

/-- The decoding loop from index `j` on: the statements and the errors of repeated members, or all
errors where a statement cannot be decoded. -/
def decodeStatements (j : Nat) :
    List String → Except (List ValidationError) (List ParsedEntityStatement × List ValidationError)
  | [] => .ok ([], [])
  | jwt :: rest =>
    match decodeEntityStatement P jwt with
    | .error e => .error [{ code := .TrustChainInvalid
                            message := s!"Failed to decode statement at index {j}: {e.description}"
                            statementIndex := some j, checkNumber := some 1 }]
    | .ok es =>
      let duplicates := duplicateMemberErrors P j jwt
      match decodeStatements (j + 1) rest with
      | .error errors => .error (duplicates ++ errors)
      | .ok (parsed, errors) => .ok (es :: parsed, duplicates ++ errors)

/-- All that the first loop checks. -/
def allStatementChecks (options : TrustChainValidationOptions) (now : Rat)
    (parsed : List ParsedEntityStatement) : List Check :=
  (List.range parsed.length).flatMap fun j =>
    statementChecks P options now (parsed.length - 1) j (statementAt parsed j)

/-- Metadata resolution. -/
def chainMetadata (options : TrustChainValidationOptions) (stage : MetadataStage)
    (parsed : List ParsedEntityStatement) : Except Stop ResolvedChainMetadata := do
  let subordinates := subordinateStatements parsed
  let published ← publishedMetadata (statementAt parsed 0) subordinates.head?
  match constraintsLoop P parsed 1 parsed.tail published with
  | .error _ => .error .throws
  | .ok (errors, metadata) => do
    let resolved ← resolveChainMetadata P subordinates
      { customOperators := options.customPolicyOperators } stage metadata
    return { resolved with errors := errors ++ resolved.errors }

/-- Metadata resolution and Trust Marks of an authenticated chain. -/
def chainEvidence (trustAnchors : TrustAnchorSet) (options : TrustChainValidationOptions)
    (verifyMarks : Bool) (clock : Clock) (stage : MetadataStage) (chain : AuthenticatedChain) :
    Except Stop ValidationResult := do
  let metadata ← chainMetadata P options stage chain.statements
  let marks ← leafTrustMarks P trustAnchors options verifyMarks clock chain.statements
  let errors := metadata.errors ++ marks.1
  if errors.isEmpty then
    return .valid { chain with resolvedMetadata := metadata.resolvedMetadata, trustMarks := marks.2 }
      metadata.pending
  else return failed options errors

/-- The chain that the statements make. -/
def authenticatedChain (parsed : List ParsedEntityStatement) : AuthenticatedChain where
  statements := parsed
  entityId := ((statementAt parsed 0).payload.string? "iss").getD ""
  trustAnchorId := ((statementAt parsed (parsed.length - 1)).payload.string? "iss").getD ""
  expiresAt := calculateChainExpiration parsed

def validateTrustChainImpl (chain : List String) (trustAnchors : TrustAnchorSet)
    (options : TrustChainValidationOptions) (verifyMarks : Bool) (clock : Clock)
    (stage : MetadataStage) : Except JsError ValidationResult :=
  if chain.isEmpty then
    .ok (.invalid [{ code := .TrustChainInvalid, message := "Trust chain MUST NOT be empty"
                     checkNumber := some 1 }])
  else
    match decodeStatements P 0 chain with
    | .error errors => .ok (.invalid errors)
    | .ok (parsed, duplicates) => do
      let errors ← runChecks (allStatementChecks P options (clock .start) parsed)
      if !(duplicates ++ errors).isEmpty then .ok (failed options (duplicates ++ errors))
      else do
        let errors ← runChecks (chainChecks P trustAnchors options.clockSkew clock chain parsed)
        if !errors.isEmpty then .ok (failed options errors)
        else
          match chainEvidence P trustAnchors options verifyMarks clock stage
              (authenticatedChain parsed) with
          | .ok result => .ok result
          | .error .outside => .ok (.outside (authenticatedChain parsed))
          | .error _ => .error .typeError

/-- Validate a chain and its published Trust Marks. -/
def validateTrustChain (chain : List String) (trustAnchors : TrustAnchorSet)
    (options : TrustChainValidationOptions) (clock : Clock) : Except JsError ValidationResult :=
  validateTrustChainImpl P chain trustAnchors options true clock {}

end Validate

end OidFed
