import OidFed.Chain.Shape

/-!
# From statement to statement (`trust-chain/validate.ts`, between the two early exits)

* `leafChecks`: the leaf's Entity Configuration verifies under its own keys.
* `linkChecks`: a statement's issuer is the next one's subject and verifies under its keys.
* `anchorChecks`, `hintChecks`: the Trust Anchor at the end, and the hints that lead to it.
-/

namespace OidFed

open Js

section Links

variable (P : Platform) (trustAnchors : TrustAnchorSet) (clockSkew : Rat) (clock : Clock)
  (chain : List String) (parsed : List ParsedEntityStatement)

/-- `parsed[j]`. -/
def statementAt (j : Nat) : ParsedEntityStatement := parsed.getD j default

/-- `chain[j]`. -/
def jwtAt (j : Nat) : String := chain.getD j ""

/-- The keys that a statement names, where it names any. -/
def statementKeys (p : Payload) : Option JWKSet :=
  if Json.truthy? (p.get? "jwks") then (p.get? "jwks").map jwksOf else none

/-- The error of a JWT that does not verify under the keys. -/
def signatureCheck (j : Nat) (keys : JWKSet) (site : ClockSite) (checkNumber : Nat)
    (message : String → String) : Check :=
  match verifyEntityStatement P (jwtAt chain j) keys clockSkew (clock site) with
  | .ok _ => .ok []
  | .error e => .ok [{ code := .SignatureInvalid, message := message e.description
                       statementIndex := some j, checkNumber := some checkNumber }]

/-- The leaf's statement is its own, and verifies as such. -/
def leafChecks : List Check :=
  let leaf := (statementAt parsed 0).payload
  [check (!isEC leaf)
      { code := .TrustChainInvalid, message := "Leaf EC iss !== sub", statementIndex := some 0
        checkNumber := some 9 },
    match statementKeys leaf with
    | some keys => signatureCheck P clockSkew clock chain 0 keys .leafKeys 10
        fun e => s!"Leaf EC self-signature invalid: {e}"
    | none => .ok [{ code := .TrustChainInvalid
                     message := "Leaf EC missing jwks for self-verification"
                     statementIndex := some 0, checkNumber := some 10 }]]

/-- The loop over neighbours, at one index. -/
def linkChecksAt (j : Nat) : List Check :=
  let current := (statementAt parsed j).payload
  let next := (statementAt parsed (j + 1)).payload
  [checkText (!Json.strictEq (current.get? "iss") (next.get? "sub"))
      (do
        let iss ← P.text (current.get? "iss")
        let sub ← P.text (next.get? "sub")
        return s!"iss '{iss}' !== next sub '{sub}'")
      fun texts => { code := .TrustChainInvalid
                     message := s!"Chain continuity broken at statement {j}: {texts}"
                     statementIndex := some j, checkNumber := some 12 },
    match statementKeys next with
    | some keys => signatureCheck P clockSkew clock chain j keys (.link j) 13
        fun e => s!"Signature invalid at statement {j}: {e}"
    | none => .ok []]

def linkChecks : List Check :=
  (List.range (parsed.length - 1)).flatMap (linkChecksAt P clockSkew clock chain parsed)

/-- The issuer of a statement is a configured Trust Anchor. -/
def isConfiguredAnchor (p : Payload) : Bool := (keysFor trustAnchors (p.get? "iss")).isSome

/-- The last statement verifies under the keys configured for its issuer. -/
def anchorChecks : List Check :=
  let lastIdx := parsed.length - 1
  let last := (statementAt parsed lastIdx).payload
  let trailing := isEC last && isConfiguredAnchor trustAnchors last
  [checkText (!isConfiguredAnchor trustAnchors last) (P.text (last.get? "iss"))
      fun lastIss => { code := .TrustAnchorUnknown
                       message := s!"Trust anchor '{lastIss}' is not in configured trust anchors"
                       statementIndex := some lastIdx, checkNumber := some 14 },
    match keysFor trustAnchors (last.get? "iss") with
    | some keys => signatureCheck P clockSkew clock chain lastIdx keys .anchorKeys 15
        fun e => s!"TA signature verification failed: {e}"
    | none => .ok [],
    check (trailing && (last.get? "authority_hints").isSome)
      (chainError lastIdx "authority_hints" 14
        "Trust Anchor EC MUST NOT contain authority_hints"),
    check (trailing && (last.get? "trust_anchor_hints").isSome)
      (chainError lastIdx "trust_anchor_hints" 15
        "Trust Anchor EC MUST NOT contain trust_anchor_hints")]

/-- An Entity Configuration that is not the anchor's has hints. -/
def missingHintsCheck (j : Nat) : Check :=
  let p := (statementAt parsed j).payload
  let isTrustAnchor := j == parsed.length - 1 && isConfiguredAnchor trustAnchors p
  check (isEC p && !isTrustAnchor && (p.get? "authority_hints").isNone)
    (chainError j "authority_hints" 14
      s!"Entity Configuration at statement {j} MUST contain authority_hints (non-TA entity)")

/-- The issuer of a Subordinate Statement is among the hints of its subject, where the statement
before is the subject's own. -/
def subjectHintsCheck (j : Nat) : Check :=
  let ss := (statementAt parsed j).payload
  let subject := (statementAt parsed (j - 1)).payload
  if isEC ss || !isEC subject then .ok []
  else
    match subject.get? "authority_hints" with
    | some (.arr hints) =>
      checkText (!hints.any fun hint => Json.strictEq (some hint) (ss.get? "iss"))
        (P.text (ss.get? "iss")) fun iss => chainError j "authority_hints" 6
          s!"SS issuer '{iss}' not found in subject's authority_hints at statement {j}"
    -- the schema has left no other value
    | _ => .ok []

def hintChecks : List Check :=
  (List.range parsed.length).map (missingHintsCheck trustAnchors parsed) ++
    (List.range' 1 (parsed.length - 1)).map (subjectHintsCheck P parsed)

/-- All that is checked between the two early exits. -/
def chainChecks : List Check :=
  leafChecks P clockSkew clock chain parsed ++ linkChecks P clockSkew clock chain parsed ++
    anchorChecks P trustAnchors clockSkew clock chain parsed ++ hintChecks P trustAnchors parsed

end Links

section Lemmas

variable {P : Platform} {clockSkew : Rat} {clock : Clock} {chain : List String}
  {parsed : List ParsedEntityStatement}

theorem statementAt_eq {j : Nat} {es : ParsedEntityStatement} (h : parsed[j]? = some es) :
    statementAt parsed j = es := by
  simp [statementAt, List.getD, h]

theorem jwtAt_eq {j : Nat} {jwt : String} (h : chain[j]? = some jwt) : jwtAt chain j = jwt := by
  simp [jwtAt, List.getD, h]

theorem signatureCheck_eq_nil {j : Nat} {keys : JWKSet} {site : ClockSite} {checkNumber : Nat}
    {message : String → String} :
    signatureCheck P clockSkew clock chain j keys site checkNumber message = .ok [] ↔
      ∃ es, verifyEntityStatement P (jwtAt chain j) keys clockSkew (clock site) = .ok es := by
  unfold signatureCheck
  cases verifyEntityStatement P (jwtAt chain j) keys clockSkew (clock site) with
  | ok es => simp
  | error e => simp

end Lemmas

end OidFed
