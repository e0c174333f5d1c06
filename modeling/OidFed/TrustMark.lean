import OidFed.Jose
import OidFed.Schema

/-!
# Trust Marks (`trust-marks/index.ts`)

* `validateTrustMark`: a Trust Mark against a table of authorized issuers and the keys of its
  issuer, with `validateDelegation` for the delegation that it may carry.
* `validateTrustMark_eq_ok`: what a validated mark has passed, check by check.

The tables of issuers and owners are plain objects read under a type that the mark chooses, so a
type may name a member of `Object.prototype`.
-/

namespace OidFed

open Js

structure ValidatedTrustMarkDelegation where
  issuer : String
  subject : String
  trustMarkType : String
  issuedAt : Rat
  expiresAt : Option Rat := none
  deriving DecidableEq

structure ValidatedTrustMark where
  trustMarkType : String
  issuer : String
  subject : String
  issuedAt : Rat
  expiresAt : Option Rat := none
  delegation : Option ValidatedTrustMarkDelegation := none
  deriving DecidableEq

structure TrustMarkValidationOptions where
  clockSkew : Rat
  expectedSubject : Option Json := none
  trustMarkOwners : Option (Dict String Json) := none

def tmError {α : Type} (description : String) : Except Stop α :=
  .error (.fail (internalError .TrustMarkInvalid description))

/-- A check of a Trust Mark. -/
def tmRequire (cond : Bool) (description : String) : Except Stop Unit :=
  if cond then .ok () else tmError description

/-- A check whose message quotes a value. -/
def tmRequireText (cond : Bool) (text : Option String) (description : String → String) :
    Except Stop Unit :=
  if cond then .ok ()
  else
    match text with
    | some t => tmError (description t)
    | none => .error .throws

/-- The value of a `Result` within the validation of a mark. -/
def tmValue {α : Type} (result : Except FederationError α) (description : String → String) :
    Except Stop α :=
  match result with
  | .ok a => .ok a
  | .error e => tmError (description e.description)

def describeSchemaIssues (issues : Issue × List Issue) : String :=
  "; ".intercalate ((issues.1 :: issues.2).map fun issue =>
    let path := if issue.path.isEmpty then "payload" else ".".intercalate issue.path
    s!"{path}: {issue.message}")

/-- `if (o[k])`. -/
def readTruthy : Read Json → Bool
  | .own v => v.truthy
  | .builtin _ => true
  | .undefined => false

/-- The read of a member of what a read gave; a function has none of the names that are read. -/
def memberOf (r : Read Json) (name : String) : Option Json :=
  match r with
  | .own v => v.get? name
  | _ => none

/-- The owner that a type has. -/
def ownerRead (owners : Option (Dict String Json)) (trustMarkType : String) : Read Json :=
  match owners with
  | none => .undefined
  | some owners => owners.read trustMarkType

/-- The authorization of an issuer for a type. An empty list authorizes everyone; so does what has
no `length` above zero. -/
def checkIssuer (trustMarkIssuers : Dict String Json) (trustMarkType iss : String) :
    Except Stop Unit :=
  match trustMarkIssuers.read trustMarkType with
  | .undefined => tmError "Trust mark type not recognized"
  | .own (.arr allowedIssuers) =>
    tmRequire (allowedIssuers.isEmpty || allowedIssuers.contains (.str iss))
      "Issuer is not authorized for this trust mark type"
  -- the schema of the claim has left arrays only
  | .own _ => .error .throws
  -- a function has a `length` and no `includes`
  | .builtin (.function length) => if 0 < length then .error .throws else .ok ()
  | .builtin .object => .ok ()

section Validate

variable (P : Platform)

def validateDelegation (delegationJwt trustMarkIssuer trustMarkType : String)
    (options : TrustMarkValidationOptions) (now verificationTime : Rat) :
    Except Stop ValidatedTrustMarkDelegation := do
  let decoded ← tmValue (decodeEntityStatement P delegationJwt)
    fun e => s!"Failed to decode delegation JWT: {e}"
  let header := decoded.header
  let payload := decoded.payload
  tmRequireText (header.get? "typ" == some (.str JwtTyp.trustMarkDelegation))
    (P.text (header.get? "typ"))
    fun typ => s!"Invalid delegation typ: expected '{JwtTyp.trustMarkDelegation}', got '{typ}'"
  tmRequire (Json.truthy? (header.get? "kid"))
    "Trust Mark delegation JWT must include kid header parameter"
  tmRequireText (isValidAlgorithm (header.get? "alg")) (P.text (header.get? "alg"))
    fun alg => s!"Unsupported delegation algorithm: '{alg}'"
  let issues := P.zodIssues "TrustMarkDelegation" (.obj payload.members)
  tmRequire (trustMarkDelegationPayloadSchema P (.obj payload.members))
    s!"Invalid Trust Mark delegation payload: {describeSchemaIssues issues}"
  let iss := (urlOutput P (payload.get? "iss")).getD ""
  let sub := (urlOutput P (payload.get? "sub")).getD ""
  let dTmType := (payload.string? "trust_mark_type").getD ""
  let iat := (payload.number? "iat").getD 0
  let exp := payload.number? "exp"
  tmRequire (sub == trustMarkIssuer)
    s!"Delegation sub '{sub}' does not match trust mark issuer '{trustMarkIssuer}'"
  tmRequire (dTmType == trustMarkType)
    s!"Delegation trust_mark_type '{dTmType}' does not match '{trustMarkType}'"
  let owner := ownerRead options.trustMarkOwners trustMarkType
  tmRequire (readTruthy owner) s!"No trust_mark_owners configured for type '{trustMarkType}'"
  tmRequireText (memberOf owner "sub" == some (.str iss)) (P.text (memberOf owner "sub"))
    fun ownerSub => s!"Delegation iss '{iss}' does not match trust_mark_owners sub '{ownerSub}'"
  tmRequire (decide (iat ≤ now + options.clockSkew))
    s!"Delegation iat is in the future: {P.numberText iat}"
  let _ ← tmValue (verifyEntityStatement P delegationJwt
      (((memberOf owner "jwks").map jwksOf).getD []) options.clockSkew verificationTime
      JwtTyp.trustMarkDelegation)
    fun e => s!"Delegation signature verification failed: {e}"
  let expText := (exp.map P.numberText).getD ""
  tmRequire (exp.all fun exp => decide (now - options.clockSkew ≤ exp))
    s!"Delegation has expired: exp={expText}"
  return { issuer := iss, subject := sub, trustMarkType := dTmType, issuedAt := iat,
           expiresAt := exp }

/-- Validate the mark with index `i` among those that a statement publishes. -/
def validateTrustMark (trustMarkJwt : String) (trustMarkIssuers : Dict String Json)
    (issuerJwks : JWKSet) (options : TrustMarkValidationOptions) (clock : Clock) (i : Nat) :
    Except Stop ValidatedTrustMark := do
  let now := clock (.mark i)
  let decoded ← tmValue (decodeEntityStatement P trustMarkJwt)
    fun e => s!"Failed to decode trust mark JWT: {e}"
  let header := decoded.header
  let payload := decoded.payload
  tmRequireText (header.get? "typ" == some (.str JwtTyp.trustMark)) (P.text (header.get? "typ"))
    fun typ => s!"Invalid typ header: expected '{JwtTyp.trustMark}', got '{typ}'"
  tmRequireText (isValidAlgorithm (header.get? "alg")) (P.text (header.get? "alg"))
    fun alg => s!"Unsupported algorithm: '{alg}'"
  tmRequire (Json.truthy? (header.get? "kid")) "Trust Mark JWT must include kid header parameter"
  let issues := P.zodIssues "TrustMark" (.obj payload.members)
  tmRequire (trustMarkPayloadSchema P (.obj payload.members))
    s!"Invalid Trust Mark payload: {describeSchemaIssues issues}"
  let iss := (urlOutput P (payload.get? "iss")).getD ""
  let sub := (urlOutput P (payload.get? "sub")).getD ""
  let trustMarkType := (payload.string? "trust_mark_type").getD ""
  let iat := (payload.number? "iat").getD 0
  let exp := payload.number? "exp"
  tmRequire (!Json.truthy? options.expectedSubject || options.expectedSubject == some (.str sub))
    "Trust mark sub does not match expected entity"
  checkIssuer trustMarkIssuers trustMarkType iss
  let _ ← tmValue (verifyEntityStatement P trustMarkJwt issuerJwks options.clockSkew
      (clock (.markKeys i)) JwtTyp.trustMark)
    fun e => s!"Signature verification failed: {e}"
  tmRequire (decide (iat ≤ now + options.clockSkew))
    s!"iat is in the future: {P.numberText iat}"
  let expText := (exp.map P.numberText).getD ""
  tmRequire (exp.all fun exp => decide (now - options.clockSkew ≤ exp))
    s!"Trust mark has expired: exp={expText}"
  let delegationJwt := (payload.string? "delegation").filter (· ≠ "")
  tmRequire (!readTruthy (ownerRead options.trustMarkOwners trustMarkType) || delegationJwt.isSome)
    s!"Trust mark type '{trustMarkType}' requires delegation (in trust_mark_owners) but none provided"
  let delegation ← delegationJwt.mapM fun jwt =>
    validateDelegation P jwt iss trustMarkType options now (clock (.delegationKeys i))
  return { trustMarkType, issuer := iss, subject := sub, issuedAt := iat, expiresAt := exp,
           delegation }

end Validate

/-! ## What the checks establish -/

theorem tmRequire_eq_ok {cond : Bool} {d : String} {u : Unit} :
    tmRequire cond d = .ok u ↔ cond = true := by
  cases cond <;> simp [tmRequire, tmError]

theorem tmRequireText_eq_ok {cond : Bool} {text : Option String} {d : String → String} {u : Unit} :
    tmRequireText cond text d = .ok u ↔ cond = true := by
  cases cond <;> cases text <;> simp [tmRequireText, tmError]

theorem tmValue_eq_ok {α : Type} {result : Except FederationError α} {d : String → String} {a : α} :
    tmValue result d = .ok a ↔ result = .ok a := by
  cases result <;> simp [tmValue, tmError]

section Spec

variable {P : Platform}

/-- A delegation by the owner of the type, for the issuer of a mark. -/
structure DelegationChecked (P : Platform) (delegationJwt issuer trustMarkType : String)
    (options : TrustMarkValidationOptions) (verificationTime : Rat)
    (d : ValidatedTrustMarkDelegation) : Prop where
  subject : d.subject = issuer
  type : d.trustMarkType = trustMarkType
  owner : memberOf (ownerRead options.trustMarkOwners trustMarkType) "sub" = some (.str d.issuer)
  signed : ∃ es, verifyEntityStatement P delegationJwt
    (((memberOf (ownerRead options.trustMarkOwners trustMarkType) "jwks").map jwksOf).getD [])
    options.clockSkew verificationTime JwtTyp.trustMarkDelegation = .ok es

theorem validateDelegation_eq_ok {delegationJwt issuer trustMarkType : String}
    {options : TrustMarkValidationOptions} {now verificationTime : Rat}
    {d : ValidatedTrustMarkDelegation}
    (h : validateDelegation P delegationJwt issuer trustMarkType options now verificationTime =
      .ok d) :
    DelegationChecked P delegationJwt issuer trustMarkType options verificationTime d := by
  obtain ⟨decoded, -, h⟩ := bind_eq_ok.mp h
  obtain ⟨_, -, h⟩ := bind_eq_ok.mp h
  obtain ⟨_, -, h⟩ := bind_eq_ok.mp h
  obtain ⟨_, -, h⟩ := bind_eq_ok.mp h
  obtain ⟨_, -, h⟩ := bind_eq_ok.mp h
  obtain ⟨_, hsub, h⟩ := bind_eq_ok.mp h
  obtain ⟨_, htype, h⟩ := bind_eq_ok.mp h
  obtain ⟨_, -, h⟩ := bind_eq_ok.mp h
  obtain ⟨_, howner, h⟩ := bind_eq_ok.mp h
  obtain ⟨_, -, h⟩ := bind_eq_ok.mp h
  obtain ⟨es, hsigned, h⟩ := bind_eq_ok.mp h
  obtain ⟨_, -, h⟩ := bind_eq_ok.mp h
  obtain rfl := Except.ok.inj h
  exact ⟨by simpa using tmRequire_eq_ok.mp hsub, by simpa using tmRequire_eq_ok.mp htype,
    by simpa using tmRequireText_eq_ok.mp howner, es, tmValue_eq_ok.mp hsigned⟩

/-- What a validated mark has passed. -/
structure MarkChecked (P : Platform) (trustMarkJwt : String) (trustMarkIssuers : Dict String Json)
    (issuerJwks : JWKSet) (options : TrustMarkValidationOptions) (clock : Clock) (i : Nat)
    (es : ParsedEntityStatement) (m : ValidatedTrustMark) : Prop where
  decoded : decodeEntityStatement P trustMarkJwt = .ok es
  type : es.payload.get? "trust_mark_type" = some (.str m.trustMarkType)
  issuer : urlOutput P (es.payload.get? "iss") = some m.issuer
  subject : Json.truthy? options.expectedSubject = true →
    options.expectedSubject = some (.str m.subject)
  authorized : checkIssuer trustMarkIssuers m.trustMarkType m.issuer = .ok ()
  signed : ∃ es', verifyEntityStatement P trustMarkJwt issuerJwks options.clockSkew
    (clock (.markKeys i)) JwtTyp.trustMark = .ok es'
  issued : es.payload.get? "iat" = some (.num m.issuedAt) ∧
    m.issuedAt ≤ clock (.mark i) + options.clockSkew
  expires : m.expiresAt = es.payload.number? "exp" ∧
    ∀ exp, m.expiresAt = some exp → clock (.mark i) - options.clockSkew ≤ exp
  delegated : readTruthy (ownerRead options.trustMarkOwners m.trustMarkType) = true →
    ∃ jwt d, es.payload.get? "delegation" = some (.str jwt) ∧ m.delegation = some d ∧
      DelegationChecked P jwt m.issuer m.trustMarkType options (clock (.delegationKeys i)) d

theorem validateTrustMark_eq_ok {trustMarkJwt : String} {trustMarkIssuers : Dict String Json}
    {issuerJwks : JWKSet} {options : TrustMarkValidationOptions} {clock : Clock} {i : Nat}
    {m : ValidatedTrustMark}
    (h : validateTrustMark P trustMarkJwt trustMarkIssuers issuerJwks options clock i = .ok m) :
    ∃ es, MarkChecked P trustMarkJwt trustMarkIssuers issuerJwks options clock i es m := by
  obtain ⟨es, hdecoded, h⟩ := bind_eq_ok.mp h
  obtain ⟨_, -, h⟩ := bind_eq_ok.mp h
  obtain ⟨_, -, h⟩ := bind_eq_ok.mp h
  obtain ⟨_, -, h⟩ := bind_eq_ok.mp h
  obtain ⟨_, hschema, h⟩ := bind_eq_ok.mp h
  obtain ⟨_, hsubject, h⟩ := bind_eq_ok.mp h
  obtain ⟨⟨⟩, hauthorized, h⟩ := bind_eq_ok.mp h
  obtain ⟨es', hsigned, h⟩ := bind_eq_ok.mp h
  obtain ⟨_, hiat, h⟩ := bind_eq_ok.mp h
  obtain ⟨_, hexp, h⟩ := bind_eq_ok.mp h
  obtain ⟨_, howned, h⟩ := bind_eq_ok.mp h
  obtain ⟨delegation, hdelegation, h⟩ := bind_eq_ok.mp h
  obtain rfl := Except.ok.inj h
  -- the claims that the schema has checked
  have hfields := tmRequire_eq_ok.mp hschema
  obtain ⟨iss, hiss, hissOk⟩ := looseObject_required hfields
    (f := { name := "iss", schema := entityIdSchema P }) (by simp) rfl
  obtain ⟨type, htype, htypeOk⟩ := looseObject_required hfields
    (f := { name := "trust_mark_type", schema := Schema.string }) (by simp) rfl
  obtain ⟨iat, hiatClaim, hiatOk⟩ := looseObject_required hfields
    (f := { name := "iat", schema := Schema.positiveInt }) (by simp) rfl
  obtain ⟨type, rfl⟩ := string_eq_str htypeOk
  obtain ⟨iat, rfl⟩ := positiveInt_number hiatOk
  obtain ⟨text, htext⟩ := entityIdSchema_output hissOk
  simp only at hiss htype hiatClaim
  have hissuer : urlOutput P (es.payload.get? "iss") = some text := by rw [hiss, htext]
  have hnum : es.payload.number? "iat" = some iat := by
    simp [Payload.number?, hiatClaim, Json.number?]
  have hstr : es.payload.string? "trust_mark_type" = some type :=
    Payload.string?_eq_some.mpr htype
  simp only [hissuer, hnum, hstr, Option.getD_some] at hauthorized hiat howned hdelegation ⊢
  -- so the defaults that stand for absent claims play no part
  refine ⟨es, ⟨tmValue_eq_ok.mp hdecoded, htype, hissuer, ?_, hauthorized,
    ⟨es', tmValue_eq_ok.mp hsigned⟩, ⟨hiatClaim, by simpa using tmRequire_eq_ok.mp hiat⟩,
    ⟨rfl, ?_⟩, ?_⟩⟩
  · intro ht
    simpa [ht] using tmRequire_eq_ok.mp hsubject
  · intro exp he
    have := tmRequire_eq_ok.mp hexp
    rw [show es.payload.number? "exp" = some exp from he] at this
    simpa using this
  · intro howner
    have hsome := tmRequire_eq_ok.mp howned
    rw [howner, Bool.not_true, Bool.false_or] at hsome
    obtain ⟨jwt, hjwt⟩ := Option.isSome_iff_exists.mp hsome
    rw [hjwt] at hdelegation
    obtain ⟨d, hd, hdel⟩ := bind_eq_ok.mp hdelegation
    obtain rfl := Except.ok.inj hdel
    obtain ⟨hclaim, -⟩ := Option.filter_eq_some_iff.mp hjwt
    exact ⟨jwt, d, Payload.string?_eq_some.mp hclaim, rfl, validateDelegation_eq_ok hd⟩

end Spec

end OidFed
