import OidFed.Js.Json

/-!
# Error codes and results

`errors.ts` and the code tables of `constants.ts`. A `Result` of the source is `Except
FederationError`. An exception thrown by the language (a `TypeError`), which in an `async`
function rejects the promise, is a `JsError`.
-/

namespace OidFed

inductive FederationErrorCode where
  | InvalidRequest
  | InvalidClient
  | InvalidIssuer
  | InvalidSubject
  | InvalidTrustAnchor
  | InvalidTrustChain
  | InvalidMetadata
  | NotFound
  | ServerError
  | TemporarilyUnavailable
  | UnsupportedParameter
  | UnsupportedClaim
  | EntityIdNotFound
  | PageNotFound
  deriving DecidableEq, Repr

def FederationErrorCode.text : FederationErrorCode → String
  | InvalidRequest => "invalid_request"
  | InvalidClient => "invalid_client"
  | InvalidIssuer => "invalid_issuer"
  | InvalidSubject => "invalid_subject"
  | InvalidTrustAnchor => "invalid_trust_anchor"
  | InvalidTrustChain => "invalid_trust_chain"
  | InvalidMetadata => "invalid_metadata"
  | NotFound => "not_found"
  | ServerError => "server_error"
  | TemporarilyUnavailable => "temporarily_unavailable"
  | UnsupportedParameter => "unsupported_parameter"
  | UnsupportedClaim => "unsupported_claim"
  | EntityIdNotFound => "entity_id_not_found"
  | PageNotFound => "page_not_found"

inductive InternalErrorCode where
  | TrustChainInvalid
  | SignatureInvalid
  | MetadataPolicyError
  | MetadataPolicyViolation
  | ConstraintViolation
  | Network
  | TrustAnchorUnknown
  | Timeout
  | UnsupportedAlg
  | TrustMarkInvalid
  | Expired
  | LoopDetected
  deriving DecidableEq, Repr

def InternalErrorCode.text : InternalErrorCode → String
  | TrustChainInvalid => "ERR_TRUST_CHAIN_INVALID"
  | SignatureInvalid => "ERR_SIGNATURE_INVALID"
  | MetadataPolicyError => "ERR_METADATA_POLICY_ERROR"
  | MetadataPolicyViolation => "ERR_METADATA_POLICY_VIOLATION"
  | ConstraintViolation => "ERR_CONSTRAINT_VIOLATION"
  | Network => "ERR_NETWORK"
  | TrustAnchorUnknown => "ERR_TRUST_ANCHOR_UNKNOWN"
  | Timeout => "ERR_TIMEOUT"
  | UnsupportedAlg => "ERR_UNSUPPORTED_ALG"
  | TrustMarkInvalid => "ERR_TRUST_MARK_INVALID"
  | Expired => "ERR_EXPIRED"
  | LoopDetected => "ERR_LOOP_DETECTED"

inductive ErrorCode where
  | federation (c : FederationErrorCode)
  | internal (c : InternalErrorCode)
  deriving DecidableEq, Repr

def ErrorCode.text : ErrorCode → String
  | federation c => c.text
  | internal c => c.text

structure FederationError where
  code : ErrorCode
  description : String
  deriving DecidableEq, Repr

def federationError (code : FederationErrorCode) (description : String) : FederationError :=
  ⟨.federation code, description⟩

def internalError (code : InternalErrorCode) (description : String) : FederationError :=
  ⟨.internal code, description⟩

/-- An exception thrown by the language. -/
inductive JsError where
  | typeError
  deriving DecidableEq, Repr

/-- Why a function that returns a `Result` returns no value of it: it fails, it throws, or the run
goes on `outside`, with a member of `Object.prototype` in the place of an object of its own, or
with an object whose prototype it has replaced. What such a run writes may land in objects shared
by the whole program. -/
inductive Stop where
  | fail (e : FederationError)
  | throws
  | outside
  deriving DecidableEq, Repr

/-- `if (c) throw new Error(message)`. -/
def throwIf (c : Bool) (message : String) : Except String Unit :=
  if c then .error message else .ok ()

@[simp] theorem throwIf_eq_ok {c : Bool} {message : String} {u : Unit} :
    throwIf c message = .ok u ↔ c = false := by
  cases c <;> simp [throwIf]

end OidFed
