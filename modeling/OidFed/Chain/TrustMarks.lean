import OidFed.Chain.Inside

/-!
# Trust Marks of a valid chain

* `MarkTrusted`: the law of one mark: the anchor authorizes its issuer for the type, a trusted key
  signed it, it is about the leaf and timely, and where the type is owned, its owner delegates it.
* `MarksHold`: each published mark has been validated, in order, and is trusted.
* `marksHold_iff`: a type that the table of issuers inherits from `Object.prototype` passes for one
  that everybody may issue. The law holds of a valid chain exactly when no published mark has such
  a type without the anchor listing it.
-/

namespace OidFed

open Js

section Law

variable (P : Platform) (trustAnchors : TrustAnchorSet) (options : TrustChainValidationOptions)
  (clock : Clock) (statements : List ParsedEntityStatement)

/-- The claims of the last statement. -/
def lastPayload : Payload := (statementAt statements (statements.length - 1)).payload

/-- The issuers that a trailing Entity Configuration of the anchor lists, by type. -/
def listedIssuers : Dict String Json :=
  if isEC (lastPayload statements) then
    ownMembers ((lastPayload statements).get? "trust_mark_issuers")
  else .empty

/-- The owners that it lists, by type. -/
def listedOwners : Dict String Json :=
  if isEC (lastPayload statements) then
    ownMembers ((lastPayload statements).get? "trust_mark_owners")
  else .empty

/-- Keys that are trusted for an issuer: the caller's for it, the anchor's, or those of an Entity
Configuration of the chain. -/
def TrustedKeys (iss : Option Json) (jwks : JWKSet) : Prop :=
  keysFor options.trustMarkIssuerKeys iss = some jwks ∨
    keysFor trustAnchors ((lastPayload statements).get? "iss") = some jwks ∨
    ∃ s ∈ statements, isEC s.payload = true ∧ statementKeys s.payload = some jwks

/-- A delegation, issued and signed by the owner of the type, for the issuer of the mark. -/
def DelegatedBy (owner : Json) (jwt : String) (i : Nat) (m : ValidatedTrustMark) : Prop :=
  ∃ d, m.delegation = some d ∧ owner.get? "sub" = some (.str d.issuer) ∧ d.subject = m.issuer ∧
    d.trustMarkType = m.trustMarkType ∧
    ∃ jwks es, owner.get? "jwks" = some jwks ∧ verifyEntityStatement P jwt (jwksOf jwks)
      options.clockSkew (clock (.delegationKeys i)) JwtTyp.trustMarkDelegation = .ok es

/-- The mark that was validated for the published mark with index `i`. -/
structure MarkTrusted (i : Nat) (tmRef : Json) (m : ValidatedTrustMark) (jwt : String)
    (es : ParsedEntityStatement) : Prop where
  published : tmRef.get? "trust_mark" = some (.str jwt) ∧
    tmRef.get? "trust_mark_type" = some (.str m.trustMarkType)
  decoded : decodeEntityStatement P jwt = .ok es
  type : es.payload.get? "trust_mark_type" = some (.str m.trustMarkType)
  issuer : urlOutput P (es.payload.get? "iss") = some m.issuer
  authorized : ∃ allowed, (listedIssuers statements).get? m.trustMarkType = some (.arr allowed) ∧
    (allowed = [] ∨ .str m.issuer ∈ allowed)
  signed : ∃ jwks es', TrustedKeys trustAnchors options statements (es.payload.get? "iss") jwks ∧
    verifyEntityStatement P jwt jwks options.clockSkew (clock (.markKeys i)) JwtTyp.trustMark =
      .ok es'
  subject : (statementAt statements 0).payload.get? "iss" = some (.str m.subject)
  issued : es.payload.get? "iat" = some (.num m.issuedAt) ∧
    m.issuedAt ≤ clock (.mark i) + options.clockSkew
  expires : m.expiresAt = es.payload.number? "exp" ∧
    ∀ exp, m.expiresAt = some exp → clock (.mark i) - options.clockSkew ≤ exp
  delegated : ∀ owner, (listedOwners statements).get? m.trustMarkType = some owner →
    ∃ delegation, es.payload.get? "delegation" = some (.str delegation) ∧
      DelegatedBy P options clock owner delegation i m

/-- One trusted mark for each published one, in order. -/
def MarksHold (v : ValidatedTrustChain) : Prop :=
  let tmRefs := publishedTrustMarks (statementAt v.statements 0).payload
  v.trustMarks.length = tmRefs.length ∧
    ∀ (i : Nat) tmRef m, tmRefs[i]? = some tmRef → v.trustMarks[i]? = some m →
      ∃ jwt es, MarkTrusted P trustAnchors options clock v.statements i tmRef m jwt es

end Law

/-! ## Tables -/

theorem trustMarkIssuersOf_get? {statements : List ParsedEntityStatement} {table : Dict String Json}
    (h : trustMarkIssuersOf (lastPayload statements) = .ok table) {t : String}
    (ht : t ≠ "__proto__") : table.get? t = (listedIssuers statements).get? t := by
  unfold trustMarkIssuersOf at h
  unfold listedIssuers
  split
  · rename_i hec
    rw [if_pos hec] at h
    exact assignMembers_get? h ht rfl
  · rename_i hec
    rw [if_neg hec] at h
    obtain rfl := Except.ok.inj h
    rfl

/-- No list of issuers stands under `__proto__`, in the table or in the claim. -/
theorem trustMarkIssuersOf_proto {statements : List ParsedEntityStatement}
    {table : Dict String Json} (h : trustMarkIssuersOf (lastPayload statements) = .ok table) :
    table.get? "__proto__" = none ∧
      ∀ allowed, (listedIssuers statements).get? "__proto__" ≠ some (.arr allowed) := by
  unfold trustMarkIssuersOf at h
  unfold listedIssuers
  split
  · rename_i hec
    rw [if_pos hec] at h
    obtain ⟨hnone, hall⟩ := assignMembers_proto h rfl
    refine ⟨hnone, fun allowed ha => ?_⟩
    have := hall _ (Dict.mem_of_get?_ofEntries ha)
    simp [Json.isArray] at this
  · rename_i hec
    rw [if_neg hec] at h
    obtain rfl := Except.ok.inj h
    simp

theorem entityJwks_get? {lastIss name : String} {taKeys : Option JWKSet}
    {parsed : List ParsedEntityStatement} {jwks : JWKSet}
    (h : (entityJwks lastIss taKeys parsed).get? name = some jwks) :
    taKeys = some jwks ∨ ∃ s ∈ parsed, isEC s.payload = true ∧ statementKeys s.payload = some jwks := by
  have hfold : ∀ (l : List ParsedEntityStatement) (d : Dict String JWKSet),
      (l.foldl addEntityKeys d).get? name = some jwks → d.get? name = some jwks ∨
        ∃ s ∈ l, isEC s.payload = true ∧ statementKeys s.payload = some jwks := by
    intro l
    induction l with
    | nil => exact fun d hd => .inl hd
    | cons s rest ih =>
      intro d hd
      rcases ih _ hd with hd | ⟨s', hs', hkeys⟩
      · unfold addEntityKeys at hd
        split at hd
        · rename_i hec hkeys
          rw [Dict.get?_set] at hd
          split at hd
          · exact .inr ⟨s, List.mem_cons_self, hec, by rw [hkeys, ← Option.some.inj hd]⟩
          · exact .inl hd
        · exact .inl hd
      · exact .inr ⟨s', List.mem_cons_of_mem _ hs', hkeys⟩
  rcases hfold parsed _ h with h | h
  · left
    rw [Dict.get?_put] at h
    split at h
    · exact h
    · simp at h
  · exact .inr h

section Authorization

variable {trustMarkIssuers : Dict String Json} {t iss : String}

/-- An issuer is authorized by a list, or under a name that the table inherits. -/
theorem checkIssuer_eq_ok (h : checkIssuer trustMarkIssuers t iss = .ok ()) :
    (∃ allowed, trustMarkIssuers.get? t = some (.arr allowed) ∧
      (allowed = [] ∨ .str iss ∈ allowed)) ∨
    (trustMarkIssuers.get? t = none ∧ inherited t = true) := by
  unfold checkIssuer Dict.read at h
  cases hg : trustMarkIssuers.get? t with
  | some v =>
    rw [hg] at h
    cases v with
    | arr allowed =>
      left
      refine ⟨allowed, rfl, ?_⟩
      simpa using tmRequire_eq_ok.mp h
    | _ => simp [readOr] at h
  | none =>
    right
    rw [hg] at h
    refine ⟨rfl, ?_⟩
    by_contra hi
    rw [readOr_of_not_inherited _ (by simpa using hi)] at h
    simp [tmError] at h

end Authorization

section Hold

variable {P : Platform} {trustAnchors : TrustAnchorSet} {options : TrustChainValidationOptions}
  {verifyMarks : Bool} {clock : Clock} {stage : MetadataStage} {chain : List String}
  {v : ValidatedTrustChain} {pending : List ContextualMetadataClaim}

/-- The marks of an accepted leaf are JWTs under a type. -/
theorem Accepted.trustMarkRefs {parsed : List ParsedEntityStatement}
    (h : Accepted P trustAnchors options clock chain parsed) {tmRef : Json}
    (hmem : tmRef ∈ publishedTrustMarks (statementAt parsed 0).payload) :
    ∃ t jwt, tmRef.get? "trust_mark_type" = some (.str t) ∧
      tmRef.get? "trust_mark" = some (.str jwt) := by
  obtain ⟨_, s₀, _, _, hs₀, _⟩ := h.leaf
  have hschema := h.schema hs₀
  rw [statementSchema, if_pos (.inl rfl)] at hschema
  have hfield := looseObject_field (entityConfigurationSchema_fields hschema).1
    (f := { name := "trust_marks", schema := Schema.array trustMarkRefSchema, optional := true })
    (by simp [baseEntityStatementFields])
  rw [statementAt_eq hs₀] at hmem
  unfold publishedTrustMarks at hmem
  cases hv : s₀.payload.get? "trust_marks" with
  | none => simp [hv] at hmem
  | some v =>
    cases v with
    | arr l =>
      simp only [hv, Option.bind_some, Json.items?, Option.getD_some] at hmem hfield
      have href := List.all_eq_true.mp hfield tmRef hmem
      obtain ⟨t, ht, hts⟩ := looseObject_member href
        (f := { name := "trust_mark_type", schema := Schema.string }) (by simp) rfl
      obtain ⟨jwt, hjwt, hjwts⟩ := looseObject_member href
        (f := { name := "trust_mark", schema := Schema.string }) (by simp) rfl
      obtain ⟨t, rfl⟩ := string_eq_str hts
      obtain ⟨jwt, rfl⟩ := string_eq_str hjwts
      exact ⟨t, jwt, ht, hjwt⟩
    | _ => simp [hv, Json.items?] at hmem

/-- The owners that an accepted chain lists are objects. -/
theorem Accepted.owner_truthy {parsed : List ParsedEntityStatement}
    (h : Accepted P trustAnchors options clock chain parsed) {t : String} (ht : t ≠ "__proto__")
    {owner : Json} (ho : (listedOwners parsed).get? t = some owner) : owner.truthy = true := by
  obtain ⟨_, sₙ, _, _, _, _, hsₙ, _⟩ := h.anchor
  rw [List.getLast?_eq_getElem?] at hsₙ
  unfold listedOwners lastPayload at ho
  rw [statementAt_eq hsₙ] at ho
  split at ho
  swap
  · simp at ho
  rename_i hec
  have hschema := h.schema hsₙ
  rw [statementSchema, if_pos (.inr ⟨rfl, hec⟩)] at hschema
  have hfield := looseObject_field (entityConfigurationSchema_fields hschema).1
    (f := { name := "trust_mark_owners", schema := Schema.record (trustMarkOwnerSchema P)
            optional := true }) (by simp [baseEntityStatementFields])
  have hmem := Dict.mem_of_get?_ofEntries ho
  cases hv : sₙ.payload.get? "trust_mark_owners" with
  | none => simp [hv, objectEntries] at hmem
  | some v =>
    rw [hv] at hmem hfield
    cases v with
    | obj l =>
      have hobj := List.all_eq_true.mp hfield (t, owner) hmem
      simp only [beq_eq_false_iff_ne.mpr ht, Bool.false_or] at hobj
      cases owner with
      | obj _ => rfl
      | _ => simp [trustMarkOwnerSchema, Schema.looseObject] at hobj
    | _ => simp [Schema.record] at hfield

/-- The published marks of a valid chain have been validated, in order. -/
theorem Evidence.publishedMarks
    (hev : Evidence P trustAnchors options true clock stage v.statements v pending) :
    let tmRefs := publishedTrustMarks (statementAt v.statements 0).payload
    v.trustMarks.length = tmRefs.length ∧ ∀ (i : Nat) tmRef m, tmRefs[i]? = some tmRef →
      v.trustMarks[i]? = some m → ∃ ctx, markContext trustAnchors options v.statements = .ok ctx ∧
        publishedMark P ctx clock i tmRef = .ok (.ok m) := by
  have h := hev.marks
  unfold leafTrustMarks at h
  simp only [Bool.not_true, Bool.false_or] at h
  split at h
  · rename_i hnil
    obtain ⟨-, hmarks⟩ := Prod.mk.inj (Except.ok.inj h)
    rw [List.isEmpty_iff.mp hnil, ← hmarks]
    simp
  · obtain ⟨ctx, hctx, h⟩ := bind_eq_ok.mp h
    obtain ⟨hlen, hall⟩ := publishedMarks_eq_ok h
    refine ⟨hlen, fun i tmRef m hr hm => ⟨ctx, hctx, ?_⟩⟩
    have := hall i tmRef m hr hm
    rwa [Nat.zero_add] at this

/-- The context of a chain's marks. -/
theorem markContext_eq_ok {statements : List ParsedEntityStatement} {ctx : MarkContext}
    (h : markContext trustAnchors options statements = .ok ctx) :
    ∃ table, trustMarkIssuersOf (lastPayload statements) = .ok table ∧ ctx =
      { trustMarkIssuers := table
        trustMarkOwners := trustMarkOwnersOf (lastPayload statements)
        entityJwks := entityJwks (((lastPayload statements).string? "iss").getD "")
          (keysFor trustAnchors ((lastPayload statements).get? "iss")) statements
        trustMarkIssuerKeys := options.trustMarkIssuerKeys
        clockSkew := options.clockSkew
        expectedSubject := (statementAt statements 0).payload.get? "iss" } := by
  obtain ⟨table, ht, h⟩ := bind_eq_ok.mp h
  exact ⟨table, ht, (Except.ok.inj h).symm⟩

/-- Keys under which a mark verifies are trusted keys. -/
theorem trustedKeys_of_issuerKeys {statements : List ParsedEntityStatement} {ctx : MarkContext}
    (hctx : markContext trustAnchors options statements = .ok ctx) {iss : Option Json}
    {jwks : JWKSet} (h : issuerKeys P ctx iss = .ok (some jwks)) (hne : jwks ≠ []) :
    TrustedKeys trustAnchors options statements iss jwks := by
  obtain ⟨table, -, rfl⟩ := markContext_eq_ok hctx
  unfold issuerKeys at h
  split at h
  · simp at h
  cases hk : keysFor options.trustMarkIssuerKeys iss with
  | some jwks' =>
    simp only [hk] at h
    obtain rfl := Option.some.inj (Except.ok.inj h)
    exact .inl hk
  | none =>
    simp only [hk] at h
    cases hn : P.text iss with
    | none => simp [hn] at h
    | some name =>
      simp only [hn, Dict.read] at h
      cases hg : (entityJwks (((lastPayload statements).string? "iss").getD "")
          (keysFor trustAnchors ((lastPayload statements).get? "iss")) statements).get? name with
      | some jwks' =>
        simp only [hg, readOr] at h
        obtain rfl := Option.some.inj (Except.ok.inj h)
        exact .inr (entityJwks_get? hg)
      | none =>
        simp only [hg, readOr] at h
        cases hb : objectPrototype.lookup name with
        | none => simp [hb] at h
        | some b =>
          simp only [hb, Except.ok.injEq, Option.some.injEq] at h
          exact absurd h.symm hne

theorem ownerRead_of_listed {statements : List ParsedEntityStatement} {t : String} {owner : Json}
    (h : (listedOwners statements).get? t = some owner) :
    ownerRead (trustMarkOwnersOf (lastPayload statements)) t = .own owner := by
  unfold listedOwners at h
  split at h
  swap
  · simp at h
  rename_i hec
  have hmem := Dict.mem_of_get?_ofEntries h
  have htruthy : Json.truthy? ((lastPayload statements).get? "trust_mark_owners") = true := by
    unfold objectEntries at hmem
    cases hv : (lastPayload statements).get? "trust_mark_owners" with
    | none => simp [hv] at hmem
    | some v => cases v <;> simp_all [Json.fields, Json.truthy?, Json.truthy]
  simp [trustMarkOwnersOf, hec, htruthy, ownerRead, Dict.read, h, readOr]

/-- A validated mark is trusted, unless its type is inherited and not listed. -/
theorem markTrusted_of_published {parsed : List ParsedEntityStatement} {ctx : MarkContext}
    {i : Nat} {tmRef : Json} {m : ValidatedTrustMark}
    (hacc : Accepted P trustAnchors options clock chain parsed)
    (hctx : markContext trustAnchors options parsed = .ok ctx)
    (hmem : tmRef ∈ publishedTrustMarks (statementAt parsed 0).payload)
    (hmark : publishedMark P ctx clock i tmRef = .ok (.ok m))
    (hlisted : ∀ t, tmRef.get? "trust_mark_type" = some (.str t) → inherited t = true →
      t ≠ "__proto__" ∧ ((listedIssuers parsed).get? t).isSome) :
    ∃ jwt es, MarkTrusted P trustAnchors options clock parsed i tmRef m jwt es := by
  obtain ⟨t, jwt, ht, hjwt⟩ := hacc.trustMarkRefs hmem
  obtain ⟨es, jwks, hsame, hkeys, hchecked⟩ := publishedMark_eq_ok hjwt hmark
  obtain ⟨table, htable, rfl⟩ := markContext_eq_ok hctx
  obtain rfl : t = m.trustMarkType := by
    have := Json.eq_of_strictEq hsame
    rw [ht, hchecked.type] at this
    simpa using this
  have hproto : m.trustMarkType ≠ "__proto__" := by
    intro heq
    have hi : inherited m.trustMarkType = true := by rw [heq]; decide
    exact (hlisted _ ht hi).1 heq
  refine ⟨jwt, es, ⟨hjwt, ht⟩, hchecked.decoded, hchecked.type, hchecked.issuer, ?_, ?_, ?_,
    hchecked.issued, hchecked.expires, ?_⟩
  · -- a listed type; an inherited one is listed by assumption
    rcases checkIssuer_eq_ok hchecked.authorized with ⟨allowed, hget, hall⟩ | ⟨hnone, hi⟩
    · exact ⟨allowed, by rw [← trustMarkIssuersOf_get? htable hproto]; exact hget, hall⟩
    · have hsome := (hlisted _ ht hi).2
      rw [← trustMarkIssuersOf_get? htable hproto] at hsome
      simp only at hnone
      simp [hnone] at hsome
  · obtain ⟨es', hsigned⟩ := hchecked.signed
    -- with no keys there would be none that the header selects
    refine ⟨jwks, es', trustedKeys_of_issuerKeys hctx hkeys ?_, hsigned⟩
    rintro rfl
    obtain ⟨-, -, kid, alg, key, -, -, hkid, -, hkey, -⟩ := verifyEntityStatement_eq_ok hsigned
    have := (selectVerificationKey_mem hkid hkey).1
    simp at this
  · obtain ⟨_, s₀, iss, _, hs₀, hiss, -⟩ := hacc.leaf
    -- the subject is compared if the leaf names one, and it does
    have hpresent := check_eq_nil.mp (hacc.statement_check hs₀
      (c := presenceCheck 0 s₀.payload "iss" 1) (by simp [statementChecks]))
    have hsubject := hchecked.subject
    simp only [statementAt_eq hs₀] at hsubject ⊢
    exact hsubject (by simpa using hpresent)
  · intro owner howner
    have hread := ownerRead_of_listed howner
    obtain ⟨delegation, d, hclaim, hd, hdel⟩ := hchecked.delegated (by
      simpa only [hread, readTruthy] using hacc.owner_truthy hproto howner)
    have hsub := hdel.owner
    obtain ⟨es', hsigned⟩ := hdel.signed
    simp only [hread, memberOf] at hsub hsigned
    refine ⟨delegation, hclaim, d, hd, hsub, hdel.subject, hdel.type, ?_⟩
    cases hj : owner.get? "jwks" with
    | some jwks => exact ⟨jwks, es', rfl, by simpa [hj] using hsigned⟩
    | none =>
      rw [hj] at hsigned
      obtain ⟨-, -, kid, alg, key, -, -, hkid, -, hkey, -⟩ := verifyEntityStatement_eq_ok hsigned
      have := (selectVerificationKey_mem hkid hkey).1
      simp at this

/-- The marks of a valid chain are trusted exactly when the anchor lists every published type that
is inherited from `Object.prototype`, and none of them is `__proto__`; and a chain of own members is
valid where it is accepted. -/
theorem marksHold_iff {result : ValidationResult} {c : AuthenticatedChain}
    (h : validateTrustChain P chain trustAnchors options clock = .ok result)
    (hchain : result.chain? = some c) :
    (OwnMembers options c.statements → ∃ v pending, result = .valid v pending) ∧
    ∀ v pending, result = .valid v pending →
      (MarksHold P trustAnchors options clock v ↔
        ∀ tmRef ∈ publishedTrustMarks (statementAt v.statements 0).payload, ∀ t,
          tmRef.get? "trust_mark_type" = some (.str t) → inherited t = true →
            t ≠ "__proto__" ∧ ((listedIssuers v.statements).get? t).isSome) := by
  refine ⟨validateTrustChain_inside h hchain, ?_⟩
  rintro v pending rfl
  obtain ⟨hacc, hev⟩ := validateTrustChainImpl_eq_valid h
  obtain ⟨hlen, hmarks⟩ := hev.publishedMarks
  constructor
  · rintro ⟨-, htrusted⟩ tmRef hmem t ht hi
    obtain ⟨i, hr⟩ := List.mem_iff_getElem?.mp hmem
    obtain ⟨m, hm⟩ : ∃ m, v.trustMarks[i]? = some m :=
      ⟨_, List.getElem?_eq_getElem (by rw [hlen]; exact (List.getElem?_eq_some_iff.mp hr).1)⟩
    obtain ⟨jwt, es, hmark⟩ := htrusted i tmRef m hr hm
    obtain rfl : t = m.trustMarkType := by simpa [ht] using hmark.published.2
    obtain ⟨allowed, hlisted, -⟩ := hmark.authorized
    obtain ⟨ctx, hctx, -⟩ := hmarks i tmRef m hr hm
    obtain ⟨table, htable, -⟩ := markContext_eq_ok hctx
    refine ⟨fun heq => ?_, by simp [hlisted]⟩
    rw [heq] at hlisted
    exact (trustMarkIssuersOf_proto htable).2 allowed hlisted
  · intro hcond
    refine ⟨hlen, fun i tmRef m hr hm => ?_⟩
    obtain ⟨ctx, hctx, hmark⟩ := hmarks i tmRef m hr hm
    have hmem := List.mem_of_getElem? hr
    exact markTrusted_of_published hacc hctx hmem hmark fun t => hcond tmRef hmem t

end Hold

/-- A relying party that publishes a mark of a type, which it issued itself, below an anchor that
lists nobody for any type. -/
def chainWithMark (trustMarkType : String) : List (String × SignedJwt) :=
  let mark := Json.obj [("trust_mark_type", .str trustMarkType), ("trust_mark", .str "mark")]
  [("rp", signedJwt JwtTyp.entityStatement "rp-key"
      (statementClaims "https://rp.example" "https://rp.example" "rp-key"
        [("authority_hints", .arr [.str "https://ta.example"]), ("trust_marks", .arr [mark])])),
    ("ta-about-rp", signedJwt JwtTyp.entityStatement "ta-key"
      (statementClaims "https://ta.example" "https://rp.example" "rp-key" [])),
    ("ta", signedJwt JwtTyp.entityStatement "ta-key"
      (statementClaims "https://ta.example" "https://ta.example" "ta-key"
        [("trust_mark_issuers", .obj [("https://ta.example/mark", .arr [])])])),
    ("mark", signedJwt JwtTyp.trustMark "rp-key"
      [("iss", .str "https://rp.example"), ("sub", .str "https://rp.example"),
        ("trust_mark_type", .str trustMarkType), ("iat", .num 1000)])]

def validateWithMark (trustMarkType : String) : Except JsError ValidationResult :=
  validateTrustChain (tablePlatform (chainWithMark trustMarkType)) ["rp", "ta-about-rp", "ta"]
    exampleAnchors {} fun _ => 1500

theorem marksHold_listed : ∃ v pending,
    validateWithMark "https://ta.example/mark" = .ok (.valid v pending) ∧
      v.trustMarks.length = 1 ∧
      MarksHold (tablePlatform (chainWithMark "https://ta.example/mark")) exampleAnchors {}
        (fun _ => 1500) v := by
  obtain ⟨v, pending, hvalid, hall⟩ := exists_valid
    (r := validateWithMark "https://ta.example/mark")
    (p := fun v => v.trustMarks.length == 1 &&
      (publishedTrustMarks (statementAt v.statements 0).payload).all fun tmRef =>
        ((tmRef.get? "trust_mark_type").bind Json.string?).all fun t => !inherited t)
    (by decide +kernel)
  simp only [Bool.and_eq_true, beq_iff_eq, List.all_eq_true] at hall
  refine ⟨v, pending, hvalid, hall.1,
    ((marksHold_iff hvalid rfl).2 v pending rfl).mpr fun tmRef hmem t ht hi => ?_⟩
  have := hall.2 tmRef hmem
  simp [ht, Json.string?, hi] at this

/-- The anchor lists nobody for a type `toString`; the leaf's own mark of it is accepted. -/
theorem inherited_mark_accepted : ∃ v pending,
    validateWithMark "toString" = .ok (.valid v pending) ∧ v.trustMarks.length = 1 ∧
      ¬ MarksHold (tablePlatform (chainWithMark "toString")) exampleAnchors {}
        (fun _ => 1500) v := by
  obtain ⟨v, pending, hvalid, hbad⟩ := exists_valid (r := validateWithMark "toString")
    (p := fun v => v.trustMarks.length == 1 &&
      ((listedIssuers v.statements).get? "toString").isNone &&
      (v.trustMarks[0]?).all (·.trustMarkType == "toString") &&
      (publishedTrustMarks (statementAt v.statements 0).payload).length == 1) (by decide +kernel)
  simp only [Bool.and_eq_true, beq_iff_eq, Option.isNone_iff_eq_none] at hbad
  obtain ⟨⟨⟨hlen, hnone⟩, htype⟩, hrefs⟩ := hbad
  refine ⟨v, pending, hvalid, hlen, fun ⟨_, hold⟩ => ?_⟩
  obtain ⟨m, hm⟩ := List.length_eq_one_iff.mp hlen
  obtain ⟨tmRef, hr⟩ := List.length_eq_one_iff.mp hrefs
  obtain ⟨jwt, es, hmark⟩ := hold 0 tmRef m (by simp [hr]) (by simp [hm])
  obtain ⟨allowed, hlisted, -⟩ := hmark.authorized
  have : m.trustMarkType = "toString" := by simpa [hm] using htype
  rw [this, hnone] at hlisted
  simp at hlisted

end OidFed
