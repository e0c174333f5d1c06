import OidFed.Chain.Validate

/-!
# What validation authenticates

* `statementSchema_claims`: the claims that the schema of a statement has checked.
* `Accepted`: the checks that a chain has passed once its metadata is resolved.
* `Authentic`: the leaf's self-signed statement, the signed links up to a configured anchor, and
  the times and headers of every statement. `validateTrustChain_authentic`: every chain that a
  result is about is authentic.
-/

namespace OidFed

open Js

/-! ## Claims of an accepted statement -/

section Claims

variable {P : Platform} {p : Payload}

/-- The claims that every Entity Statement has. -/
structure StatementClaims (p : Payload) : Prop where
  iss : ∃ s, p.get? "iss" = some (.str s)
  sub : ∃ s, p.get? "sub" = some (.str s)
  iat : ∃ q, p.get? "iat" = some (.num q)
  exp : ∃ q, p.get? "exp" = some (.num q)
  jwks : ∃ v, p.get? "jwks" = some v ∧ jwkSetSchema v = true

theorem statementClaims_of_fields {fields : List SchemaField}
    (h : Schema.looseObject fields (.obj p.members) = true)
    (hjwks : { name := "jwks", schema := jwkSetSchema } ∈ fields)
    (hbase : ∀ f ∈ baseEntityStatementFields P, f ∈ fields) : StatementClaims p := by
  have hid : ∀ name, { name, schema := entityIdSchema P } ∈ fields →
      ∃ s, p.get? name = some (.str s) := by
    intro name hf
    obtain ⟨v, hv, hs⟩ := looseObject_required h hf rfl
    obtain ⟨s, rfl⟩ := entityIdSchema_string hs
    exact ⟨s, hv⟩
  have hnum : ∀ name, { name, schema := Schema.positiveInt } ∈ fields →
      ∃ q, p.get? name = some (.num q) := by
    intro name hf
    obtain ⟨v, hv, hs⟩ := looseObject_required h hf rfl
    obtain ⟨q, rfl⟩ := positiveInt_number hs
    exact ⟨q, hv⟩
  refine ⟨hid _ (hbase _ ?_), hid _ (hbase _ ?_), hnum _ (hbase _ ?_), hnum _ (hbase _ ?_),
    looseObject_required h hjwks rfl⟩ <;> simp [baseEntityStatementFields]

theorem entityConfigurationSchema_fields {v : Json} (h : entityConfigurationSchema P v = true) :
    Schema.looseObject ({ name := "jwks", schema := jwkSetSchema } ::
      { name := "metadata", schema := federationMetadataSchema P, optional := true } ::
      (baseEntityStatementFields P ++ hintFields P)) v = true ∧
      urlOutput P (v.get? "iss") = urlOutput P (v.get? "sub") := by
  simp only [entityConfigurationSchema, Bool.and_eq_true, beq_iff_eq] at h
  exact ⟨h.1.1, h.2⟩

theorem subordinateStatementSchema_fields {v : Json} (h : subordinateStatementSchema P v = true) :
    Schema.looseObject ({ name := "jwks", schema := jwkSetSchema } :: metadataRecordField ::
      (baseEntityStatementFields P ++ sourceFields P)) v = true ∧
      urlOutput P (v.get? "iss") ≠ urlOutput P (v.get? "sub") := by
  simp only [subordinateStatementSchema, Bool.and_eq_true, bne_iff_ne, ne_eq] at h
  exact ⟨h.1.1, h.2⟩

theorem statementSchema_claims {last j : Nat}
    (h : statementSchema P last j p (.obj p.members) = true) : StatementClaims p := by
  unfold statementSchema at h
  split at h
  · refine statementClaims_of_fields (P := P) (entityConfigurationSchema_fields h).1 (by simp) ?_
    intro f hf
    simp [hf]
  · refine statementClaims_of_fields (P := P) (subordinateStatementSchema_fields h).1 (by simp) ?_
    intro f hf
    simp [hf]

/-- The hints of an accepted Entity Configuration. -/
theorem entityConfigurationSchema_hints (h : entityConfigurationSchema P (.obj p.members) = true)
    {v : Json} (hv : p.get? "authority_hints" = some v) : ∃ hints, v = .arr hints := by
  have hfield := looseObject_field (entityConfigurationSchema_fields h).1
    (f := { name := "authority_hints", schema := Schema.array (entityIdSchema P), optional := true })
    (by simp [hintFields])
  simp only [hv] at hfield
  cases v with
  | arr hints => exact ⟨hints, rfl⟩
  | _ => simp [Schema.array] at hfield

end Claims

/-! ## The checks passed -/

section Accepted

variable (P : Platform) (trustAnchors : TrustAnchorSet) (options : TrustChainValidationOptions)
  (clock : Clock) (chain : List String) (parsed : List ParsedEntityStatement)

/-- The chain has been decoded, and no check has found an error. -/
structure Accepted : Prop where
  ne : chain ≠ []
  decoded : decodeStatements P 0 chain = .ok (parsed, [])
  statements : ∀ c ∈ allStatementChecks P options (clock .start) parsed, c = .ok []
  links : ∀ c ∈ chainChecks P trustAnchors options.clockSkew clock chain parsed, c = .ok []

end Accepted

section Run

variable {P : Platform} {trustAnchors : TrustAnchorSet} {options : TrustChainValidationOptions}
  {verifyMarks : Bool} {clock : Clock} {stage : MetadataStage} {chain : List String}

/-- Metadata resolution and Trust Marks end with errors, or with the chain they were given. -/
theorem chainEvidence_chain {c a : AuthenticatedChain} {r : ValidationResult}
    (h : chainEvidence P trustAnchors options verifyMarks clock stage c = .ok r)
    (hr : r.chain? = some a) : a = c := by
  obtain ⟨metadata, -, h⟩ := bind_eq_ok.mp h
  obtain ⟨marks, -, h⟩ := bind_eq_ok.mp h
  simp only at h
  split at h
  · obtain rfl := Except.ok.inj h
    exact (Option.some.inj hr).symm
  · obtain rfl := Except.ok.inj h
    simp [failed, ValidationResult.chain?] at hr

/-- A run that ends with a chain has passed all checks on it; where it is valid, the evidence is
the last part's. -/
theorem validateTrustChainImpl_accepted {r : ValidationResult} {a : AuthenticatedChain}
    (h : validateTrustChainImpl P chain trustAnchors options verifyMarks clock stage = .ok r)
    (hr : r.chain? = some a) :
    ∃ parsed, Accepted P trustAnchors options clock chain parsed ∧ a = authenticatedChain parsed ∧
      ∀ v pending, r = .valid v pending →
        chainEvidence P trustAnchors options verifyMarks clock stage (authenticatedChain parsed) =
          .ok r := by
  unfold validateTrustChainImpl at h
  split at h
  · obtain rfl := Except.ok.inj h
    simp [ValidationResult.chain?] at hr
  rename_i hne
  cases hd : decodeStatements P 0 chain with
  | error errors =>
    rw [hd] at h
    obtain rfl := Except.ok.inj h
    simp [ValidationResult.chain?] at hr
  | ok d =>
    obtain ⟨parsed, duplicates⟩ := d
    rw [hd] at h
    simp only at h
    obtain ⟨errors, hs, h₁⟩ := bind_eq_ok.mp h
    clear h
    split at h₁
    · obtain rfl := Except.ok.inj h₁
      simp [failed, ValidationResult.chain?] at hr
    rename_i herr
    obtain ⟨rfl, rfl⟩ : duplicates = [] ∧ errors = [] := by simpa using herr
    obtain ⟨errors, hl, h⟩ := bind_eq_ok.mp h₁
    clear h₁
    split at h
    · obtain rfl := Except.ok.inj h
      simp [failed, ValidationResult.chain?] at hr
    rename_i herr
    obtain rfl : errors = [] := by simpa using herr
    -- both early exits have been passed
    have hacc : Accepted P trustAnchors options clock chain parsed :=
      ⟨by simpa using hne, hd, runChecks_eq_nil.mp hs, runChecks_eq_nil.mp hl⟩
    refine ⟨parsed, hacc, ?_⟩
    cases he : chainEvidence P trustAnchors options verifyMarks clock stage
        (authenticatedChain parsed) with
    | ok result =>
      rw [he] at h
      obtain rfl := Except.ok.inj h
      exact ⟨chainEvidence_chain he hr, fun _ _ _ => rfl⟩
    | error stop =>
      rw [he] at h
      cases stop with
      | outside =>
        obtain rfl := Except.ok.inj h
        -- the run has left its own objects; the chain has been authenticated before
        exact ⟨(Option.some.inj hr).symm, by simp⟩
      | _ => simp at h

end Run

/-! ## What they establish -/

/-- A statement is timely, and is an Entity Statement under a supported algorithm. -/
structure StatementChecked (clockSkew now : Rat) (es : ParsedEntityStatement) : Prop where
  iat : ∃ iat, es.payload.get? "iat" = some (.num iat) ∧ iat ≤ now + clockSkew
  exp : ∃ exp, es.payload.get? "exp" = some (.num exp) ∧ now - clockSkew ≤ exp
  typ : es.header.get? "typ" = some (.str JwtTyp.entityStatement)
  alg : ∃ alg ∈ supportedAlgorithms, es.header.get? "alg" = some (.str alg)

/-- The JWT verifies under the keys that a payload carries. -/
def VerifiesUnder (P : Platform) (clockSkew now : Rat) (jwt : String) (p : Payload) : Prop :=
  ∃ jwks es, p.get? "jwks" = some jwks ∧
    verifyEntityStatement P jwt (jwksOf jwks) clockSkew now = .ok es

/-- An authenticated path from the leaf to a configured anchor. -/
structure Authentic (P : Platform) (trustAnchors : TrustAnchorSet)
    (options : TrustChainValidationOptions) (clock : Clock) (chain : List String)
    (a : AuthenticatedChain) : Prop where
  length : a.statements.length = chain.length
  decoded : ∀ (j : Nat) jwt es, chain[j]? = some jwt → a.statements[j]? = some es →
    decodeEntityStatement P jwt = .ok es
  leaf : ∃ jwt s₀ iss, chain[0]? = some jwt ∧ a.statements[0]? = some s₀ ∧
    s₀.payload.get? "iss" = some (.str iss) ∧ s₀.payload.get? "sub" = some (.str iss) ∧
    VerifiesUnder P options.clockSkew (clock .leafKeys) jwt s₀.payload ∧ a.entityId = iss
  link : ∀ (j : Nat) jwt s t, chain[j]? = some jwt → a.statements[j]? = some s →
    a.statements[j + 1]? = some t →
    (∃ iss, s.payload.get? "iss" = some (.str iss) ∧ t.payload.get? "sub" = some (.str iss)) ∧
      VerifiesUnder P options.clockSkew (clock (.link j)) jwt t.payload
  anchor : ∃ jwt sₙ iss jwks es, chain.getLast? = some jwt ∧ a.statements.getLast? = some sₙ ∧
    sₙ.payload.get? "iss" = some (.str iss) ∧ trustAnchors.get? iss = some jwks ∧
    verifyEntityStatement P jwt jwks options.clockSkew (clock .anchorKeys) = .ok es ∧
    a.trustAnchorId = iss
  intermediate : ∀ (j : Nat) s, 0 < j → j + 1 < a.statements.length → a.statements[j]? = some s →
    s.payload.get? "iss" ≠ s.payload.get? "sub"
  checked : ∀ s ∈ a.statements, StatementChecked options.clockSkew (clock .start) s
  hinted : ∀ s₀ s₁, a.statements[0]? = some s₀ → a.statements[1]? = some s₁ →
    s₁.payload.get? "iss" ≠ s₁.payload.get? "sub" →
    ∃ hints iss, s₀.payload.get? "authority_hints" = some (.arr hints) ∧
      s₁.payload.get? "iss" = some iss ∧ iss ∈ hints
  expires : (∃ s ∈ a.statements, s.payload.get? "exp" = some (.num a.expiresAt)) ∧
    ∀ s ∈ a.statements, ∀ exp, s.payload.get? "exp" = some (.num exp) → a.expiresAt ≤ exp

section Authentic

variable {P : Platform} {trustAnchors : TrustAnchorSet} {options : TrustChainValidationOptions}
  {clock : Clock} {chain : List String} {parsed : List ParsedEntityStatement}

theorem decodeStatements_eq_ok {j : Nat} {jwts : List String} {parsed : List ParsedEntityStatement}
    {errors : List ValidationError} (h : decodeStatements P j jwts = .ok (parsed, errors)) :
    List.Forall₂ (fun jwt es => decodeEntityStatement P jwt = .ok es) jwts parsed := by
  induction jwts generalizing j parsed errors with
  | nil =>
    obtain ⟨rfl, -⟩ := Prod.mk.inj (Except.ok.inj h)
    exact .nil
  | cons jwt rest ih =>
    unfold decodeStatements at h
    cases hd : decodeEntityStatement P jwt with
    | error e => simp [hd] at h
    | ok es =>
      cases hr : decodeStatements P (j + 1) rest with
      | error e => simp [hd, hr] at h
      | ok r =>
        simp only [hd, hr, Except.ok.injEq, Prod.mk.injEq] at h
        obtain ⟨rfl, -⟩ := h
        exact .cons hd (ih hr)

namespace Accepted

variable (h : Accepted P trustAnchors options clock chain parsed)
include h

theorem decoded_get {j : Nat} {jwt : String} {es : ParsedEntityStatement}
    (hjwt : chain[j]? = some jwt) (hes : parsed[j]? = some es) :
    decodeEntityStatement P jwt = .ok es := by
  obtain ⟨hj, rfl⟩ := List.getElem?_eq_some_iff.mp hjwt
  obtain ⟨hj', rfl⟩ := List.getElem?_eq_some_iff.mp hes
  simpa using (List.forall₂_iff_get.mp (decodeStatements_eq_ok h.decoded)).2 j hj hj'

theorem length_eq : chain.length = parsed.length :=
  (decodeStatements_eq_ok h.decoded).length_eq

/-- A check of the first loop has passed. -/
theorem statement_check {j : Nat} {es : ParsedEntityStatement} (hes : parsed[j]? = some es)
    {c : Check} (hc : c ∈ statementChecks P options (clock .start) (parsed.length - 1) j es) :
    c = .ok [] := by
  refine h.statements c (List.mem_flatMap.mpr ⟨j, ?_, ?_⟩)
  · exact List.mem_range.mpr (List.getElem?_eq_some_iff.mp hes).1
  · rwa [statementAt_eq hes]

theorem schema {j : Nat} {es : ParsedEntityStatement} (hes : parsed[j]? = some es) :
    statementSchema P (parsed.length - 1) j es.payload (.obj es.payload.members) = true := by
  have hc := h.statement_check hes (c := schemaCheck P (parsed.length - 1) j es.payload)
    (by simp [statementChecks, rawStatementShape])
  unfold schemaCheck at hc
  split at hc
  · assumption
  · simp [schemaIssueErrors] at hc

theorem claims {j : Nat} {es : ParsedEntityStatement} (hes : parsed[j]? = some es) :
    StatementClaims es.payload :=
  statementSchema_claims (h.schema hes)

theorem statement_checked {j : Nat} {es : ParsedEntityStatement} (hes : parsed[j]? = some es) :
    StatementChecked options.clockSkew (clock .start) es := by
  obtain ⟨iat, hiat⟩ := (h.claims hes).iat
  obtain ⟨exp, hexp⟩ := (h.claims hes).exp
  have hiatCheck := h.statement_check hes
    (c := iatCheck j es.payload (clock .start) options.clockSkew) (by simp [statementChecks])
  have hexpCheck := h.statement_check hes
    (c := expCheck j es.payload (clock .start) options.clockSkew) (by simp [statementChecks])
  have htyp := checkText_eq_nil.mp (h.statement_check hes (c := typCheck P j es.header)
    (by simp [statementChecks]))
  have halg := checkText_eq_nil.mp (h.statement_check hes (c := algCheck P j es.header)
    (by simp [statementChecks]))
  refine ⟨⟨iat, hiat, ?_⟩, ⟨exp, hexp, ?_⟩, by simpa using htyp, ?_⟩
  · simp only [iatCheck, hiat] at hiatCheck
    split at hiatCheck
    · simp at hiatCheck
    · simpa using check_eq_nil.mp hiatCheck
  · simp only [expCheck, hexp] at hexpCheck
    split at hexpCheck
    · simp at hexpCheck
    · simpa using check_eq_nil.mp hexpCheck
  · exact isValidAlgorithm_eq_true.mp (by simpa using halg)

/-- A statement that does not stand at either end is a Subordinate Statement. -/
theorem intermediate {j : Nat} {es : ParsedEntityStatement} (hes : parsed[j]? = some es)
    (hj : 0 < j) (hlast : j + 1 < parsed.length) :
    es.payload.get? "iss" ≠ es.payload.get? "sub" := by
  have hschema := h.schema hes
  have hends : ¬(j = 0 ∨ j = parsed.length - 1 ∧
      Json.strictEq (es.payload.get? "iss") (es.payload.get? "sub") = true) := by omega
  rw [statementSchema, if_neg hends] at hschema
  intro heq
  exact (subordinateStatementSchema_fields hschema).2
    (congrArg (urlOutput P) (show (Json.obj es.payload.members).get? "iss" = _ from heq))

/-- The keys that an accepted statement names. -/
theorem statementKeys_eq {j : Nat} {es : ParsedEntityStatement} (hes : parsed[j]? = some es) :
    ∃ v, es.payload.get? "jwks" = some v ∧ statementKeys es.payload = some (jwksOf v) := by
  obtain ⟨v, hv, hs⟩ := (h.claims hes).jwks
  have htruthy : v.truthy = true := by
    cases v with
    | obj l => rfl
    | _ => simp [jwkSetSchema, Schema.looseObject] at hs
  exact ⟨v, hv, by simp [statementKeys, hv, Json.truthy?, htruthy]⟩

theorem verifiesUnder {i j : Nat} {jwt : String} {es : ParsedEntityStatement}
    (hjwt : chain[i]? = some jwt) (hes : parsed[j]? = some es) {site : ClockSite} {n : Nat}
    {m : String → String} {otherwise : Check}
    (hc : (match statementKeys es.payload with
      | some keys => signatureCheck P options.clockSkew clock chain i keys site n m
      | none => otherwise) = .ok []) :
    VerifiesUnder P options.clockSkew (clock site) jwt es.payload := by
  obtain ⟨v, hv, hkeys⟩ := h.statementKeys_eq hes
  rw [hkeys] at hc
  obtain ⟨es', hes'⟩ := signatureCheck_eq_nil.mp hc
  rw [jwtAt_eq hjwt] at hes'
  exact ⟨v, es', hv, hes'⟩

theorem link {j : Nat} {jwt : String} {s t : ParsedEntityStatement} (hjwt : chain[j]? = some jwt)
    (hs : parsed[j]? = some s) (ht : parsed[j + 1]? = some t) :
    (∃ iss, s.payload.get? "iss" = some (.str iss) ∧ t.payload.get? "sub" = some (.str iss)) ∧
      VerifiesUnder P options.clockSkew (clock (.link j)) jwt t.payload := by
  have hrange : j < parsed.length - 1 := by
    have := (List.getElem?_eq_some_iff.mp ht).1
    omega
  have hlinks : ∀ c ∈ linkChecksAt P options.clockSkew clock chain parsed j, c = .ok [] :=
    fun c hc => h.links c (by
      simp only [chainChecks, linkChecks, List.mem_append, List.mem_flatMap, List.mem_range]
      exact .inl (.inl (.inr ⟨j, hrange, hc⟩)))
  simp only [linkChecksAt, statementAt_eq hs, statementAt_eq ht, List.forall_mem_cons,
    checkText_eq_nil, Bool.not_eq_false', List.not_mem_nil, false_implies, implies_true,
    and_true] at hlinks
  obtain ⟨sub, hsub⟩ := (h.claims ht).sub
  have hiss : s.payload.get? "iss" = some (.str sub) := by
    have heq := hlinks.1
    rwa [hsub, Json.strictEq_str] at heq
  exact ⟨⟨sub, hiss, hsub⟩, h.verifiesUnder hjwt ht hlinks.2⟩

theorem ne_nil : parsed ≠ [] := by
  intro hp
  have := h.length_eq
  rw [hp, List.length_nil] at this
  exact h.ne (List.length_eq_zero_iff.mp this)

theorem leaf : ∃ jwt s₀ iss, chain[0]? = some jwt ∧ parsed[0]? = some s₀ ∧
    s₀.payload.get? "iss" = some (.str iss) ∧ s₀.payload.get? "sub" = some (.str iss) ∧
    VerifiesUnder P options.clockSkew (clock .leafKeys) jwt s₀.payload := by
  obtain ⟨jwt, rest, hchain⟩ := List.exists_cons_of_ne_nil h.ne
  obtain ⟨s₀, rest', hparsed⟩ := List.exists_cons_of_ne_nil h.ne_nil
  have hjwt : chain[0]? = some jwt := by simp [hchain]
  have hs₀ : parsed[0]? = some s₀ := by simp [hparsed]
  have hleaf : ∀ c ∈ leafChecks P options.clockSkew clock chain parsed, c = .ok [] :=
    fun c hc => h.links c (by simp [chainChecks, hc])
  simp only [leafChecks, statementAt_eq hs₀, List.forall_mem_cons, check_eq_nil,
    Bool.not_eq_false', List.not_mem_nil, false_implies, implies_true, and_true] at hleaf
  obtain ⟨iss, hiss⟩ := (h.claims hs₀).sub
  have hself : s₀.payload.get? "iss" = some (.str iss) := by
    have heq : Json.strictEq (s₀.payload.get? "iss") (s₀.payload.get? "sub") = true := hleaf.1
    rwa [hiss, Json.strictEq_str] at heq
  exact ⟨jwt, s₀, iss, hjwt, hs₀, hself, hiss, h.verifiesUnder hjwt hs₀ hleaf.2⟩

theorem anchor : ∃ jwt sₙ iss jwks es, chain.getLast? = some jwt ∧ parsed.getLast? = some sₙ ∧
    sₙ.payload.get? "iss" = some (.str iss) ∧ trustAnchors.get? iss = some jwks ∧
    verifyEntityStatement P jwt jwks options.clockSkew (clock .anchorKeys) = .ok es := by
  have hlen := h.length_eq
  have hpos : 0 < parsed.length := List.length_pos_iff.mpr h.ne_nil
  obtain ⟨sₙ, hsₙ⟩ : ∃ sₙ, parsed[parsed.length - 1]? = some sₙ :=
    ⟨_, List.getElem?_eq_getElem (by omega)⟩
  obtain ⟨jwt, hjwt⟩ : ∃ jwt, chain[parsed.length - 1]? = some jwt :=
    ⟨_, List.getElem?_eq_getElem (by omega)⟩
  obtain ⟨iss, hiss⟩ := (h.claims hsₙ).iss
  have hanchor : ∀ c ∈ anchorChecks P trustAnchors options.clockSkew clock chain parsed,
      c = .ok [] := fun c hc => h.links c (by simp [chainChecks, hc])
  simp only [anchorChecks, statementAt_eq hsₙ, List.forall_mem_cons, checkText_eq_nil,
    Bool.not_eq_false', List.not_mem_nil, false_implies, implies_true, and_true] at hanchor
  obtain ⟨jwks, hjwks⟩ := Option.isSome_iff_exists.mp
    (show (keysFor trustAnchors (sₙ.payload.get? "iss")).isSome = true from hanchor.1)
  have hsig := hanchor.2.1
  rw [hjwks] at hsig
  obtain ⟨es, hes⟩ := signatureCheck_eq_nil.mp hsig
  rw [jwtAt_eq hjwt] at hes
  refine ⟨jwt, sₙ, iss, jwks, es, ?_, ?_, hiss, ?_, hes⟩
  · rw [List.getLast?_eq_getElem?, hlen, hjwt]
  · rw [List.getLast?_eq_getElem?, hsₙ]
  · simpa [keysFor, hiss, Json.string?] using hjwks

/-- The first Subordinate Statement's issuer is among the hints of the leaf. -/
theorem hinted {s₀ s₁ : ParsedEntityStatement} (hs₀ : parsed[0]? = some s₀)
    (hs₁ : parsed[1]? = some s₁) (hss : s₁.payload.get? "iss" ≠ s₁.payload.get? "sub") :
    ∃ hints iss, s₀.payload.get? "authority_hints" = some (.arr hints) ∧
      s₁.payload.get? "iss" = some iss ∧ iss ∈ hints := by
  have hlen : 1 < parsed.length := (List.getElem?_eq_some_iff.mp hs₁).1
  obtain ⟨_, s₀', iss₀, _, hs₀', hiss₀, hsub₀, _⟩ := h.leaf
  obtain rfl : s₀ = s₀' := Option.some.inj (hs₀.symm.trans hs₀')
  have hec : isEC s₀.payload = true := by simp [isEC, hiss₀, hsub₀]
  have hnotec : isEC s₁.payload = false := by
    cases hec₁ : isEC s₁.payload with
    | false => rfl
    | true => exact absurd (Json.eq_of_strictEq hec₁) hss
  have hhint : ∀ c ∈ hintChecks P trustAnchors parsed, c = .ok [] :=
    fun c hc => h.links c (by simp [chainChecks, hc])
  have hmissing := check_eq_nil.mp (hhint (missingHintsCheck trustAnchors parsed 0) (by
    simp only [hintChecks, List.mem_append, List.mem_map, List.mem_range]
    exact .inl ⟨0, by omega, rfl⟩))
  have hsubject := hhint (subjectHintsCheck P parsed 1) (by
    simp only [hintChecks, List.mem_append, List.mem_map, List.mem_range'_1]
    exact .inr ⟨1, by omega, rfl⟩)
  obtain ⟨iss, hiss⟩ := (h.claims hs₁).iss
  -- the leaf is no Trust Anchor here, so that it has hints
  have hpresent : (s₀.payload.get? "authority_hints").isSome = true := by
    have hne : (0 == parsed.length - 1) = false := by simp; omega
    simpa [statementAt_eq hs₀, hec, hne] using hmissing
  obtain ⟨v, hv⟩ := Option.isSome_iff_exists.mp hpresent
  have hschema := h.schema hs₀
  rw [statementSchema, if_pos (.inl rfl)] at hschema
  obtain ⟨hints, rfl⟩ := entityConfigurationSchema_hints hschema hv
  simp only [subjectHintsCheck, statementAt_eq hs₁, Nat.sub_self, statementAt_eq hs₀, hec, hnotec,
    Bool.not_true, Bool.or_self, Bool.false_eq_true, if_false, hv, checkText_eq_nil,
    Bool.not_eq_false', hiss] at hsubject
  obtain ⟨hint, hmem, heq⟩ := List.any_eq_true.mp hsubject
  obtain rfl : hint = .str iss := by simpa using heq
  exact ⟨hints, .str iss, hv, hiss, hmem⟩

/-- The expiration is the earliest one. -/
theorem expires :
    (∃ s ∈ parsed, s.payload.get? "exp" = some (.num (calculateChainExpiration parsed))) ∧
      ∀ s ∈ parsed, ∀ exp, s.payload.get? "exp" = some (.num exp) →
        calculateChainExpiration parsed ≤ exp := by
  have hexp : ∀ s ∈ parsed, s.payload.get? "exp" = some (.num (expOf s)) := by
    intro s hs
    obtain ⟨j, hj⟩ := List.mem_iff_getElem?.mp hs
    obtain ⟨q, hq⟩ := (h.claims hj).exp
    simp [expOf, Payload.number?, hq, Json.number?]
  obtain ⟨m, hm⟩ : ∃ m, (parsed.map expOf).min? = some m := by
    cases hmin : (parsed.map expOf).min? with
    | none => simp [List.min?_eq_none_iff, h.ne_nil] at hmin
    | some m => exact ⟨m, rfl⟩
  have hcalc : calculateChainExpiration parsed = m := by simp [calculateChainExpiration, hm]
  obtain ⟨hmem, hle⟩ := List.min?_eq_some_iff.mp hm
  rw [hcalc]
  constructor
  · obtain ⟨s, hs, rfl⟩ := List.mem_map.mp hmem
    exact ⟨s, hs, hexp s hs⟩
  · intro s hs exp he
    have := hle _ (List.mem_map_of_mem hs)
    rwa [Json.num.inj (Option.some.inj ((hexp s hs).symm.trans he))] at this

theorem authentic :
    Authentic P trustAnchors options clock chain (authenticatedChain parsed) where
  length := h.length_eq.symm
  decoded _ _ _ hjwt hes := h.decoded_get hjwt hes
  leaf := by
    obtain ⟨jwt, s₀, iss, hjwt, hs₀, hiss, hsub, hself⟩ := h.leaf
    refine ⟨jwt, s₀, iss, hjwt, hs₀, hiss, hsub, hself, ?_⟩
    simp [authenticatedChain, statementAt_eq hs₀, Payload.string?_eq_some.mpr hiss]
  link _ _ _ _ hjwt hs ht := h.link hjwt hs ht
  anchor := by
    obtain ⟨jwt, sₙ, iss, jwks, es, hjwt, hsₙ, hiss, hkeys, hver⟩ := h.anchor
    refine ⟨jwt, sₙ, iss, jwks, es, hjwt, hsₙ, hiss, hkeys, hver, ?_⟩
    rw [List.getLast?_eq_getElem?] at hsₙ
    simp [authenticatedChain, statementAt_eq hsₙ, Payload.string?_eq_some.mpr hiss]
  intermediate _ _ hj hlast hs := h.intermediate hs hj hlast
  checked _ hs := by
    obtain ⟨j, hj⟩ := List.mem_iff_getElem?.mp hs
    exact h.statement_checked hj
  hinted _ _ hs₀ hs₁ hss := h.hinted hs₀ hs₁ hss
  expires := h.expires

end Accepted

/-- Every chain that a validation returns as valid is authentic. -/
theorem validateTrustChain_authentic {r : ValidationResult} {a : AuthenticatedChain}
    (h : validateTrustChain P chain trustAnchors options clock = .ok r) (hr : r.chain? = some a) :
    Authentic P trustAnchors options clock chain a := by
  obtain ⟨parsed, hacc, rfl, -⟩ := validateTrustChainImpl_accepted h hr
  exact hacc.authentic

end Authentic

/-- A relying party below an anchor, with an Entity Configuration and a Subordinate Statement. -/
def registeredRp : List (String × SignedJwt) :=
  [("rp", signedJwt JwtTyp.entityStatement "rp-key"
      (statementClaims "https://rp.example" "https://rp.example" "rp-key"
        [("authority_hints", .arr [.str "https://ta.example"]),
          ("metadata", .obj [("openid_relying_party", .obj [("client_name", .str "RP")])])])),
    ("ta-about-rp", signedJwt JwtTyp.entityStatement "ta-key"
      (statementClaims "https://ta.example" "https://rp.example" "rp-key" []))]

def exampleAnchors : TrustAnchorSet :=
  Dict.ofEntries [("https://ta.example", [tableKey "ta-key"])]

theorem registeredRp_authentic : ∃ a, a.entityId = "https://rp.example" ∧
    Authentic (tablePlatform registeredRp) exampleAnchors {} (fun _ => 1500) ["rp", "ta-about-rp"]
      a := by
  have hrun : ((validateTrustChain (tablePlatform registeredRp) ["rp", "ta-about-rp"]
      exampleAnchors {} fun _ => 1500).toOption.bind ValidationResult.chain?).map
        AuthenticatedChain.entityId = some "https://rp.example" := by decide +kernel
  obtain ⟨a, ha, hid⟩ := Option.map_eq_some_iff.mp hrun
  obtain ⟨r, hr, hchain⟩ := Option.bind_eq_some_iff.mp ha
  exact ⟨a, hid, validateTrustChain_authentic (toOption_eq_some.mp hr) hchain⟩

end OidFed
