import OidFed.Collection.Evidence

/-!
# What a verified mark rests on (`core/src/entity-collection/evidence.ts`)

* `PublishedBy`: a configuration is an entity's own, and stands by itself or on a path.
* `MarkEvidence`: the reference, the publication, the authorization, the path to the issuer and the
  validation of a mark, and what its expiration is bounded by.
* `MarkRests`: a mark does not outlive its entry, and has evidence, unless its type is the name of
  a member of `Object.prototype`.
* `verifyMarks_spec`: a pass over the marks of an entry adds only marks of which this is so.
-/

namespace OidFed

open Js

/-- The configuration with these claims is an entity's own, and has been authenticated. -/
def PublishedBy (C : EvidenceContext) (t : Nat) (id : String)
    (payload : EntityConfigurationPayload) : Prop :=
  ∃ jwt, C.configuration id = some (.ok jwt) ∧
    decodeEntityConfiguration C.host.toPlatform jwt = some payload ∧ payload.sub = id ∧
    ((∃ rest path, Validated C t (jwt :: rest) path) ∨
      ∃ n < t, ∃ es, validateEntityConfigurationPublication C.host.toPlatform jwt C.options
        (C.clock n) = .ok (some es))

/-- A time that is the expiration of the configuration that an entity has published. -/
def PublicationExpires (C : EvidenceContext) (t : Nat) (id : String) (expiresAt : Rat) : Prop :=
  ∃ jwt, C.configuration id = some (.ok jwt) ∧
    ∃ n < t, ∃ es, validateEntityConfigurationPublication C.host.toPlatform jwt C.options
      (C.clock n) = .ok (some es) ∧ expOf es = expiresAt

/-- What a verified mark rests on: a type with an expiration, for an entity with the expiration of
the chain to it, if there is one. -/
structure MarkEvidence (C : EvidenceContext) (t : Nat) (entity : Json) (chainExpiresAt : Option Rat)
    (mark : String × Rat) (ref : TrustMarkRef) (root : CollectionRoot) (issuer : String)
    (checked : ValidatedTrustMark) : Prop where
  reference : ref ∈ entityMarks entity ∧ ref.trustMarkType = mark.1
  published : ∃ payload, PublishedBy C t (entityIdOf entity) payload ∧
    ref ∈ payload.trustMarks.getD []
  anchor : RootRests C t root
  statement : ∃ es, decodeEntityStatement C.host.toPlatform ref.trustMark = .ok es ∧
    es.payload.get? "iss" = some (.str issuer) ∧
    es.payload.get? "trust_mark_type" = some (.str mark.1)
  authorized : ∃ issuers allowed, root.payload.trustMarkIssuers = some issuers ∧
    issuers.get? mark.1 = some (.arr allowed) ∧ (allowed = [] ∨ .str issuer ∈ allowed)
  path : ∃ chain path, Validated C t chain path ∧ path.entityId = issuer ∧
    mark.2 ≤ path.expiresAt
  validated : ∃ proof, ProofRests C t issuer proof ∧ ∃ n < t,
    validateTrustMark C.host.toPlatform ref.trustMark (root.payload.trustMarkIssuers.getD .empty)
      proof.keys (markOptions C entity root) (C.clock n) 0 = .ok checked
  chainLimit : ∀ x, chainExpiresAt = some x → mark.2 ≤ x
  publicationLimit : chainExpiresAt = none →
    ∃ x, PublicationExpires C t (entityIdOf entity) x ∧ mark.2 ≤ x
  rootLimit : mark.2 ≤ root.expiresAt
  markLimit : ∀ x, checked.expiresAt = some x → mark.2 ≤ x
  delegationLimit : ∀ d x, checked.delegation = some d → d.expiresAt = some x → mark.2 ≤ x

/-- A mark of an entry does not outlive it, and has evidence. -/
structure MarkRests (C : EvidenceContext) (t : Nat) (entity : Json) (chainExpiresAt : Option Rat)
    (expiresAt : Rat) (mark : String × Rat) : Prop where
  entry : mark.2 ≤ expiresAt
  evidence : inherited mark.1 = false →
    ∃ ref root issuer checked, MarkEvidence C t entity chainExpiresAt mark ref root issuer checked

section Later

variable {C : EvidenceContext} {t t' : Nat} {entity : Json} {chainExpiresAt : Option Rat}
  {expiresAt : Rat} {mark : String × Rat}

theorem PublishedBy.mono {id : String} {payload : EntityConfigurationPayload}
    (h : PublishedBy C t id payload) (ht : t ≤ t') : PublishedBy C t' id payload := by
  obtain ⟨jwt, hfetched, hdecoded, hsub, hauth⟩ := h
  refine ⟨jwt, hfetched, hdecoded, hsub, ?_⟩
  obtain ⟨rest, path, hpath⟩ | ⟨n, hn, hes⟩ := hauth
  · exact .inl ⟨rest, path, hpath.mono ht⟩
  · exact .inr ⟨n, lt_of_lt_of_le hn ht, hes⟩

theorem PublicationExpires.mono {id : String} {x : Rat} (h : PublicationExpires C t id x)
    (ht : t ≤ t') : PublicationExpires C t' id x := by
  obtain ⟨jwt, hfetched, n, hn, hes⟩ := h
  exact ⟨jwt, hfetched, n, lt_of_lt_of_le hn ht, hes⟩

theorem MarkEvidence.mono {ref : TrustMarkRef} {root : CollectionRoot} {issuer : String}
    {checked : ValidatedTrustMark}
    (h : MarkEvidence C t entity chainExpiresAt mark ref root issuer checked) (ht : t ≤ t') :
    MarkEvidence C t' entity chainExpiresAt mark ref root issuer checked := by
  obtain ⟨payload, hpublished, href⟩ := h.published
  obtain ⟨chain, path, hpath, hissuer⟩ := h.path
  obtain ⟨proof, hproof, n, hn, hvalid⟩ := h.validated
  exact { h with
    published := ⟨payload, hpublished.mono ht, href⟩
    anchor := h.anchor.mono ht
    path := ⟨chain, path, hpath.mono ht, hissuer⟩
    validated := ⟨proof, hproof.mono ht, n, lt_of_lt_of_le hn ht, hvalid⟩
    publicationLimit := fun hnone => by
      obtain ⟨x, hx, hle⟩ := h.publicationLimit hnone
      exact ⟨x, hx.mono ht, hle⟩ }

theorem MarkRests.mono (h : MarkRests C t entity chainExpiresAt expiresAt mark) (ht : t ≤ t') :
    MarkRests C t' entity chainExpiresAt expiresAt mark := by
  refine ⟨h.entry, fun hown => ?_⟩
  obtain ⟨ref, root, issuer, checked, he⟩ := h.evidence hown
  exact ⟨ref, root, issuer, checked, he.mono ht⟩

/-- A mark that expires earlier rests on the same. -/
theorem MarkEvidence.earlier {ref : TrustMarkRef} {root : CollectionRoot} {issuer : String}
    {checked : ValidatedTrustMark} {x : Rat}
    (h : MarkEvidence C t entity chainExpiresAt mark ref root issuer checked) (hx : x ≤ mark.2) :
    MarkEvidence C t entity chainExpiresAt (mark.1, x) ref root issuer checked := by
  obtain ⟨chain, path, hpath, hissuer, hle⟩ := h.path
  exact { h with
    path := ⟨chain, path, hpath, hissuer, hx.trans hle⟩
    chainLimit := fun y hy => hx.trans (h.chainLimit y hy)
    publicationLimit := fun hnone => by
      obtain ⟨y, hy, hle⟩ := h.publicationLimit hnone
      exact ⟨y, hy, hx.trans hle⟩
    rootLimit := hx.trans h.rootLimit
    markLimit := fun y hy => hx.trans (h.markLimit y hy)
    delegationLimit := fun d y hd hy => hx.trans (h.delegationLimit d y hd hy) }

end Later

/-! ## References of a configuration -/

section References

variable {P : Platform} {jwt : String} {es : ParsedEntityStatement}
  {payload : EntityConfigurationPayload} {options : TrustChainValidationOptions} {clock : Clock}

/-- What is decoded has passed its schema, and shows the references of the statement. -/
theorem decodeEntityConfiguration_marks (hes : decodeEntityStatement P jwt = .ok es)
    (h : decodeEntityConfiguration P jwt = some payload) :
    entityConfigurationSchema P (.obj es.payload.members) = true ∧
      payload.trustMarks = (es.payload.get? "trust_marks").map trustMarkRefs := by
  unfold decodeEntityConfiguration at h
  simp only [hes] at h
  split at h
  · rename_i hchecked
    obtain rfl := Option.some.inj h
    exact ⟨hchecked.2, rfl⟩
  · cases h

/-- A configuration that stands by itself has passed the checks on statements. -/
theorem validateEntityConfigurationPublication_eq_ok
    (h : validateEntityConfigurationPublication P jwt options clock = .ok (some es)) :
    decodeEntityStatement P jwt = .ok es ∧
      ∀ c ∈ statementChecks P options (clock .start) 0 0 es, c = .ok [] := by
  unfold validateEntityConfigurationPublication at h
  cases hd : decodeStatements P 0 [jwt] with
  | error errors => simp [hd] at h
  | ok d =>
    obtain ⟨parsed, duplicates⟩ := d
    simp only [hd] at h
    obtain ⟨errors, hs, h⟩ := bind_eq_ok.mp h
    split at h
    · cases h
    rename_i herr
    obtain ⟨-, rfl⟩ : duplicates = [] ∧ errors = [] := by simpa using herr
    obtain ⟨errors, -, h⟩ := bind_eq_ok.mp h
    split at h
    · cases h
    obtain rfl := Option.some.inj (Except.ok.inj h)
    have hall := decodeStatements_eq_ok hd
    cases hall with
    | cons hes hrest =>
      cases hrest
      rename_i es
      exact ⟨hes, fun c hc => runChecks_eq_nil.mp hs c
        (List.mem_flatMap.mpr ⟨0, by simp, by simpa [statementAt] using hc⟩)⟩

/-- The first statement of a chain that is validated has passed its checks. -/
theorem Validated.first {C : EvidenceContext} {t : Nat} {rest : List String}
    {path : AuthenticatedChain} (h : Validated C t (jwt :: rest) path)
    (hes : decodeEntityStatement C.host.toPlatform jwt = .ok es) :
    ∃ last now options, ∀ c ∈ statementChecks C.host.toPlatform options now last 0 es, c = .ok [] := by
  obtain ⟨n, -, r, hr, hpath⟩ := h
  obtain ⟨parsed, hacc, -, -⟩ := validateTrustChainImpl_accepted hr hpath
  obtain ⟨first, others, rfl⟩ := List.exists_cons_of_ne_nil hacc.ne_nil
  obtain rfl : es = first := Except.ok.inj (hes.symm.trans
    (hacc.decoded_get (j := 0) List.getElem?_cons_zero List.getElem?_cons_zero))
  exact ⟨_, _, _, fun c hc => hacc.statement_check (j := 0) List.getElem?_cons_zero hc⟩

/-- Checked references state the types that their marks have. -/
theorem reference_type {mark : ParsedEntityStatement} {ref : TrustMarkRef}
    (hes : decodeEntityStatement P jwt = .ok es)
    (hdecoded : decodeEntityConfiguration P jwt = some payload)
    (hchecked : trustMarkReferenceErrors P 0 (es.payload.get? "trust_marks") = [])
    (href : ref ∈ payload.trustMarks.getD [])
    (hmark : decodeEntityStatement P ref.trustMark = .ok mark) :
    mark.payload.get? "trust_mark_type" = some (.str ref.trustMarkType) := by
  obtain ⟨hschema, hmarks⟩ := decodeEntityConfiguration_marks hes hdecoded
  have hfield := looseObject_field (entityConfigurationSchema_fields hschema).1
    (f := { name := "trust_marks", schema := Schema.array trustMarkRefSchema, optional := true })
    (by simp [baseEntityStatementFields])
  cases hv : es.payload.get? "trust_marks" with
  | none => simp [hmarks, hv] at href
  | some v =>
    simp only [hv] at hfield
    cases v with
    | arr items =>
      rw [hmarks, hv] at href
      obtain ⟨item, hitem, rfl⟩ := List.mem_map.mp href
      have haccepted : trustMarkRefSchema item = true := List.all_eq_true.mp hfield item hitem
      obtain ⟨type, htype, htypeOk⟩ := looseObject_member haccepted
        (f := { name := "trust_mark_type", schema := Schema.string }) (by simp) rfl
      obtain ⟨text, htext, htextOk⟩ := looseObject_member haccepted
        (f := { name := "trust_mark", schema := Schema.string }) (by simp) rfl
      obtain ⟨type, rfl⟩ := string_eq_str htypeOk
      obtain ⟨text, rfl⟩ := string_eq_str htextOk
      simp only [htype, htext, Option.bind_some, Json.string?, Option.getD_some] at hmark ⊢
      rw [hv, trustMarkReferenceErrors, List.flatMap_eq_nil_iff] at hchecked
      have hnone := hchecked item hitem
      simpa [htype, htext, hmark] using hnone
    | _ => simp [Schema.array] at hfield

/-- A mark that an entity publishes has the type under which it is published. -/
theorem PublishedBy.reference_type {C : EvidenceContext} {t : Nat} {id : String}
    {mark : ParsedEntityStatement} {ref : TrustMarkRef} (h : PublishedBy C t id payload)
    (href : ref ∈ payload.trustMarks.getD [])
    (hmark : decodeEntityStatement C.host.toPlatform ref.trustMark = .ok mark) :
    mark.payload.get? "trust_mark_type" = some (.str ref.trustMarkType) := by
  obtain ⟨jwt, -, hdecoded, -, hauth⟩ := h
  obtain ⟨es, hes, last, now, options, hchecks⟩ : ∃ es,
      decodeEntityStatement C.host.toPlatform jwt = .ok es ∧ ∃ last now options,
        ∀ c ∈ statementChecks C.host.toPlatform options now last 0 es, c = .ok [] := by
    obtain ⟨rest, path, hpath⟩ | ⟨n, -, es, hself⟩ := hauth
    · cases hes : decodeEntityStatement C.host.toPlatform jwt with
      | error e => simp [decodeEntityConfiguration, hes] at hdecoded
      | ok es => exact ⟨es, rfl, hpath.first hes⟩
    · obtain ⟨hes, hchecks⟩ := validateEntityConfigurationPublication_eq_ok hself
      exact ⟨es, hes, _, _, _, hchecks⟩
  have hchecked := hchecks (.ok (trustMarkReferenceErrors C.host.toPlatform 0
    (es.payload.get? "trust_marks"))) (by simp [statementChecks, rawStatementShape])
  exact OidFed.reference_type hes hdecoded (Except.ok.inj hchecked) href hmark

end References

/-! ## Passes over marks -/

theorem earliest_le (time : Rat) (limits : List (Option Rat)) :
    earliest time limits ≤ time ∧ ∀ x, some x ∈ limits → earliest time limits ≤ x := by
  unfold earliest
  induction limits generalizing time with
  | nil => exact ⟨le_rfl, fun x hx => absurd hx List.not_mem_nil⟩
  | cons limit rest ih =>
    cases limit with
    | none =>
      obtain ⟨htime, hlimits⟩ := ih time
      exact ⟨htime, fun x hx => hlimits x (by simpa using hx)⟩
    | some y =>
      obtain ⟨htime, hlimits⟩ := ih (min time y)
      refine ⟨htime.trans (min_le_left _ _), fun x hx => ?_⟩
      obtain hx | hx := List.mem_cons.mp hx
      · obtain rfl := Option.some.inj hx
        exact htime.trans (min_le_right _ _)
      · exact hlimits x hx

section Passes

variable {C : EvidenceContext} {s s' : CollectionEvidence} {entry entry' : CollectionEntry}
  {published : PublishedConfiguration} {trustedRoot : CollectionRoot} {openOnly : Bool}

/-- What is published is the entity's own, and limits a mark where there is no chain. -/
structure PublishedRests (C : EvidenceContext) (t : Nat) (entry : CollectionEntry)
    (published : PublishedConfiguration) : Prop where
  own : PublishedBy C t (entityIdOf entry.entity) published.payload
  limit : entry.chainExpiresAt = none →
    ∃ x, published.expiresAt = some x ∧ PublicationExpires C t (entityIdOf entry.entity) x

theorem PublishedRests.mono {t t' : Nat} (h : PublishedRests C t entry published) (ht : t ≤ t') :
    PublishedRests C t' entry published := by
  refine ⟨h.own.mono ht, fun hnone => ?_⟩
  obtain ⟨x, hx, hexpires⟩ := h.limit hnone
  exact ⟨x, hx, hexpires.mono ht⟩

/-- A configuration that comes with an entry comes from its chain. -/
def WithChain (C : EvidenceContext) (t : Nat) (entry : CollectionEntry)
    (publication : Option EntityConfigurationPayload) : Prop :=
  ∀ payload, publication = some payload →
    PublishedBy C t (entityIdOf entry.entity) payload ∧ entry.chainExpiresAt.isSome = true

theorem publicationFor_spec {publication : Option EntityConfigurationPayload}
    {result : Option PublishedConfiguration} (hs : s.Sound C)
    (hpub : WithChain C s.tick entry publication)
    (h : publicationFor C s entry publication = .ok (result, s')) :
    Advances C s s' ∧ ∀ p, result = some p → PublishedRests C s'.tick entry p := by
  cases publication with
  | some payload =>
    obtain ⟨rfl, rfl⟩ := Prod.mk.inj (Except.ok.inj h)
    obtain ⟨hown, hchain⟩ := hpub payload rfl
    refine ⟨hs.advances, fun p hp => ?_⟩
    obtain rfl := Option.some.inj hp
    exact ⟨hown, fun hnone => by simp [hnone] at hchain⟩
  | none =>
    obtain ⟨fetched, hfetched, h⟩ := bind_eq_ok.mp h
    rw [settled_eq_ok] at hfetched
    cases fetched with
    | error e =>
      simp only at h
      split at h
      · cases h
      · obtain ⟨rfl, rfl⟩ := Prod.mk.inj (Except.ok.inj h)
        exact ⟨hs.advances, nofun⟩
    | ok jwt =>
      simp only at h
      cases hdecoded : decodeEntityConfiguration C.host.toPlatform jwt with
      | none =>
        simp only [hdecoded] at h
        obtain ⟨rfl, rfl⟩ := Prod.mk.inj (Except.ok.inj h)
        exact ⟨hs.advances, nofun⟩
      | some payload =>
        simp only [hdecoded] at h
        split at h
        · obtain ⟨rfl, rfl⟩ := Prod.mk.inj (Except.ok.inj h)
          exact ⟨hs.advances, nofun⟩
        rename_i hsub
        split at h
        · cases h
        · obtain ⟨rfl, rfl⟩ := Prod.mk.inj (Except.ok.inj h)
          exact ⟨hs.next, nofun⟩
        · rename_i es hself
          obtain ⟨rfl, rfl⟩ := Prod.mk.inj (Except.ok.inj h)
          refine ⟨hs.next, fun p hp => ?_⟩
          obtain rfl := Option.some.inj hp
          -- the configuration is checked by itself, at this reading of the clock
          have hself' : ∃ n < s.next.tick, ∃ es, validateEntityConfigurationPublication
              C.host.toPlatform jwt C.options (C.clock n) = .ok (some es) :=
            ⟨s.tick, Nat.lt_succ_self _, es, hself⟩
          exact ⟨⟨jwt, hfetched, hdecoded, not_not.mp hsub, .inr hself'⟩, fun _ =>
            ⟨_, rfl, jwt, hfetched, s.tick, Nat.lt_succ_self _, es, hself, rfl⟩⟩

/-- An issuer that is found has been read from the mark, and is not excluded. -/
theorem authorizedIssuerOf_eq_some {authorized : Read Json} {ref : TrustMarkRef} {issuer : Json}
    (h : authorizedIssuerOf C authorized ref = .ok (some issuer)) :
    ∃ es, decodeEntityStatement C.host.toPlatform ref.trustMark = .ok es ∧
      issuer = (es.payload.get? "iss").getD .null ∧ excludesIssuer authorized issuer = .ok false := by
  unfold authorizedIssuerOf at h
  cases hes : decodeEntityStatement C.host.toPlatform ref.trustMark with
  | error e => simp [hes] at h
  | ok es =>
    simp only [hes] at h
    obtain ⟨valid, -, h⟩ := bind_eq_ok.mp h
    split at h
    · cases h
    obtain ⟨excluded, hexcluded, h⟩ := bind_eq_ok.mp h
    split at h
    · cases h
    rename_i hnot
    obtain rfl := Option.some.inj (Except.ok.inj h)
    exact ⟨es, rfl, rfl, by simpa [hnot] using hexcluded⟩

/-- The issuers of a type that is listed, under a name that no object inherits. -/
theorem authorizedIssuers_own {payload : EntityConfigurationPayload} {type : String}
    (hown : inherited type = false) (h : readTruthy (authorizedIssuers payload type) = true) :
    ∃ issuers v, payload.trustMarkIssuers = some issuers ∧ issuers.get? type = some v ∧
      issuers.read type = .own v ∧ authorizedIssuers payload type = .own v := by
  cases hissuers : payload.trustMarkIssuers with
  | none => simp [authorizedIssuers, hissuers, readTruthy] at h
  | some issuers =>
    have hauthorized : authorizedIssuers payload type = issuers.read type := by
      simp [authorizedIssuers, hissuers]
    have hread := readOr_of_not_inherited (issuers.get? type) hown
    cases hget : issuers.get? type with
    | none =>
      rw [hauthorized, Dict.read, hread, hget] at h
      simp [readTruthy] at h
    | some v =>
      rw [hget] at hread
      have hown : issuers.read type = .own v := by rw [Dict.read, hget, hread]
      exact ⟨issuers, v, rfl, hget, hown, hauthorized.trans hown⟩

/-- A listed type has an array of issuers, which is empty or includes an issuer that is not
excluded. -/
theorem allowed_of_checked {issuers : Dict String Json} {type iss issuer : String} {v : Json}
    (hread : issuers.read type = .own v) (hchecked : checkIssuer issuers type iss = .ok ())
    (hexcluded : excludesIssuer (.own v) (.str issuer) = .ok false) :
    ∃ allowed, v = .arr allowed ∧ (allowed = [] ∨ .str issuer ∈ allowed) := by
  rw [checkIssuer, hread] at hchecked
  cases v with
  | arr allowed =>
    refine ⟨allowed, rfl, ?_⟩
    have hnot : (!allowed.isEmpty && !allowed.contains (.str issuer)) = false :=
      Except.ok.inj hexcluded
    rw [Bool.and_eq_false_iff, Bool.not_eq_false', Bool.not_eq_false'] at hnot
    exact hnot.imp List.isEmpty_iff.mp fun h => by simpa using h
  | _ => cases hchecked

/-- The evidence for a mark that is validated under the keys of an issuer with a path. -/
theorem markEvidence_of_checked {ref : TrustMarkRef} {es : ParsedEntityStatement} {issuer : String}
    {proof : IssuerProof} {checked : ValidatedTrustMark} {t n : Nat}
    (hroot : RootRests C t trustedRoot) (hpub : PublishedRests C t entry published)
    (href : ref ∈ entityMarks entry.entity)
    (hpublished : ref ∈ published.payload.trustMarks.getD [])
    (hin : inPass (authorizedIssuers trustedRoot.payload ref.trustMarkType) openOnly = true)
    (hes : decodeEntityStatement C.host.toPlatform ref.trustMark = .ok es)
    (hiss : es.payload.get? "iss" = some (.str issuer))
    (hexcluded : excludesIssuer (authorizedIssuers trustedRoot.payload ref.trustMarkType)
      (.str issuer) = .ok false)
    (hproof : ProofRests C t issuer proof) (hn : n < t)
    (hvalid : validateTrustMark C.host.toPlatform ref.trustMark
      (trustedRoot.payload.trustMarkIssuers.getD .empty) proof.keys
      (markOptions C entry.entity trustedRoot) (C.clock n) 0 = .ok checked)
    (hown : inherited ref.trustMarkType = false) :
    MarkEvidence C t entry.entity entry.chainExpiresAt
      (ref.trustMarkType, markExpiresAt entry published trustedRoot proof checked) ref trustedRoot
      issuer checked := by
  obtain ⟨es', hchecked⟩ := validateTrustMark_eq_ok hvalid
  obtain rfl : es = es' := Except.ok.inj (hes.symm.trans hchecked.decoded)
  have htype := hpub.own.reference_type hpublished hes
  obtain htypes : checked.trustMarkType = ref.trustMarkType :=
    Json.str.inj (Option.some.inj (hchecked.type.symm.trans htype))
  rw [inPass, Bool.and_eq_true] at hin
  obtain ⟨issuers, v, hissuers, hget, hread, hauthorized⟩ := authorizedIssuers_own hown hin.1
  have hallowed := hchecked.authorized
  rw [hissuers, Option.getD_some, htypes] at hallowed
  rw [hauthorized] at hexcluded
  obtain ⟨allowed, rfl, hmem⟩ := allowed_of_checked hread hallowed hexcluded
  obtain ⟨-, hlimits⟩ := earliest_le entry.expiresAt
    [entry.chainExpiresAt, published.expiresAt, some trustedRoot.expiresAt, some proof.expiresAt,
      checked.expiresAt, checked.delegation.bind (·.expiresAt)]
  obtain ⟨chain, path, hpath, hid, hexp⟩ := hproof.path
  exact {
    reference := ⟨href, rfl⟩
    published := ⟨published.payload, hpub.own, hpublished⟩
    anchor := hroot
    statement := ⟨es, hes, hiss, htype⟩
    authorized := ⟨issuers, allowed, hissuers, hget, hmem⟩
    path := ⟨chain, path, hpath, hid, hexp ▸ hlimits _ (by simp)⟩
    validated := ⟨proof, hproof, n, hn, hvalid⟩
    chainLimit := fun x hx => hlimits x (by simp [hx])
    publicationLimit := fun hnone => by
      obtain ⟨x, hx, hexpires⟩ := hpub.limit hnone
      exact ⟨x, hexpires, hlimits x (by simp [hx])⟩
    rootLimit := hlimits _ (by simp)
    markLimit := fun x hx => hlimits x (by simp [hx])
    delegationLimit := fun d x hd hx => hlimits x (by simp [hd, hx]) }

theorem checkMark_eq_ok {ref : TrustMarkRef} {proof : IssuerProof} {mark : Option (String × Rat)}
    (h : checkMark C entry published trustedRoot s ref proof = .ok (mark, s')) :
    s' = s.next ∧ ∀ m, mark = some m → ∃ checked,
      validateTrustMark C.host.toPlatform ref.trustMark
        (trustedRoot.payload.trustMarkIssuers.getD .empty) proof.keys
        (markOptions C entry.entity trustedRoot) (C.clock s.tick) 0 = .ok checked ∧
      m = (ref.trustMarkType, markExpiresAt entry published trustedRoot proof checked) := by
  unfold checkMark at h
  split at h
  · rename_i checked hvalid
    obtain ⟨rfl, rfl⟩ := Prod.mk.inj (Except.ok.inj h)
    exact ⟨rfl, fun m hm => ⟨checked, hvalid, (Option.some.inj hm).symm⟩⟩
  · obtain ⟨rfl, rfl⟩ := Prod.mk.inj (Except.ok.inj h)
    exact ⟨rfl, nofun⟩
  · cases h

/-- What a pass does with a reference: a mark that it verifies rests on evidence. -/
theorem verifyMark_spec {ref : TrustMarkRef} {mark : Option (String × Rat)} (hs : s.Sound C)
    (hroot : RootRests C s.tick trustedRoot) (hpub : PublishedRests C s.tick entry published)
    (href : ref ∈ entityMarks entry.entity)
    (h : verifyMark C published trustedRoot openOnly entry s ref = .ok (mark, s')) :
    Advances C s s' ∧ ∀ m, mark = some m →
      MarkRests C s'.tick entry.entity entry.chainExpiresAt entry.expiresAt m := by
  unfold verifyMark at h
  simp only at h
  split at h
  · obtain ⟨rfl, rfl⟩ := Prod.mk.inj (Except.ok.inj h)
    exact ⟨hs.advances, nofun⟩
  rename_i hlooked
  rw [Bool.not_eq_true, Bool.or_eq_false_iff, Bool.not_eq_false', Bool.not_eq_false',
    List.contains_iff_mem] at hlooked
  obtain ⟨hpublished, hin⟩ := hlooked
  obtain ⟨issuer, hissuer, h⟩ := bind_eq_ok.mp h
  cases issuer with
  | none =>
    obtain ⟨rfl, rfl⟩ := Prod.mk.inj (Except.ok.inj h)
    exact ⟨hs.advances, nofun⟩
  | some issuer =>
    obtain ⟨es, hes, hiss, hexcluded⟩ := authorizedIssuerOf_eq_some hissuer
    obtain ⟨⟨proof, s₁⟩, hproof, hlast⟩ := bind_eq_ok.mp h
    obtain ⟨hadv, hrests⟩ := issuerProof_spec hs hproof
    cases proof with
    | none =>
      obtain ⟨rfl, rfl⟩ := Prod.mk.inj (Except.ok.inj hlast)
      exact ⟨hadv, nofun⟩
    | some proof =>
      obtain ⟨id, rfl, hrest⟩ := hrests proof rfl
      obtain ⟨rfl, hmark⟩ := checkMark_eq_ok hlast
      refine ⟨hadv.trans hadv.sound.next, fun m hm => ?_⟩
      obtain ⟨checked, hvalid, rfl⟩ := hmark m hm
      refine ⟨(earliest_le _ _).1, fun hown => ⟨ref, trustedRoot, id, checked, ?_⟩⟩
      have hid : es.payload.get? "iss" = some (.str id) := by
        cases hget : es.payload.get? "iss" with
        | none => simp [hget] at hiss
        | some v => simpa [hget] using hiss.symm
      have hle := hadv.le.trans hadv.sound.next.le
      exact markEvidence_of_checked (hroot.mono hle) (hpub.mono hle) href hpublished hin hes hid
        hexcluded (hrest.mono hadv.sound.next.le) (Nat.lt_succ_self _) hvalid hown

/-- The marks of an entry rest on evidence. -/
def MarksRest (C : EvidenceContext) (t : Nat) (entry : CollectionEntry) : Prop :=
  ∀ m ∈ entry.verifiedMarks, MarkRests C t entry.entity entry.chainExpiresAt entry.expiresAt m

/-- The entry with more verified marks. -/
def SameButMarks (entry entry' : CollectionEntry) : Prop :=
  entry' = { entry with verifiedMarks := entry'.verifiedMarks }

theorem MarksRest.mono {t t' : Nat} (h : MarksRest C t entry) (ht : t ≤ t') :
    MarksRest C t' entry := fun m hm => (h m hm).mono ht

theorem verifyRefs_spec {refs : List TrustMarkRef} (hs : s.Sound C)
    (hroot : RootRests C s.tick trustedRoot) (hpub : PublishedRests C s.tick entry published)
    (hrefs : ∀ ref ∈ refs, ref ∈ entityMarks entry.entity) (hmarks : MarksRest C s.tick entry)
    (h : verifyRefs C published trustedRoot openOnly entry s refs = .ok (entry', s')) :
    Advances C s s' ∧ MarksRest C s'.tick entry' ∧ SameButMarks entry entry' := by
  induction refs generalizing s entry with
  | nil =>
    obtain ⟨rfl, rfl⟩ := Prod.mk.inj (Except.ok.inj h)
    exact ⟨hs.advances, hmarks, rfl⟩
  | cons ref rest ih =>
    obtain ⟨⟨mark, s₁⟩, hmark, h⟩ := bind_eq_ok.mp h
    obtain ⟨hadv, hrests⟩ := verifyMark_spec hs hroot hpub (hrefs ref List.mem_cons_self) hmark
    have hadded : MarksRest C s₁.tick
        { entry with verifiedMarks := entry.verifiedMarks ++ mark.toList } := by
      intro m hm
      obtain hm | hm := List.mem_append.mp hm
      · exact (hmarks m hm).mono hadv.le
      · exact hrests m (by simpa using hm)
    have hpub' := hpub.mono hadv.le
    have hpubAdded : PublishedRests C s₁.tick
        { entry with verifiedMarks := entry.verifiedMarks ++ mark.toList } published :=
      ⟨hpub'.own, hpub'.limit⟩
    obtain ⟨hadv', hmarks', hsame⟩ := ih hadv.sound (hroot.mono hadv.le) hpubAdded
      (fun r hr => hrefs r (List.mem_cons_of_mem _ hr)) hadded h
    exact ⟨hadv.trans hadv', hmarks', hsame⟩

/-- A pass over the marks of an entry keeps the entry, and adds marks that rest on evidence. -/
theorem verifyMarks_spec {publication : Option EntityConfigurationPayload} (hs : s.Sound C)
    (hpub : WithChain C s.tick entry publication) (hmarks : MarksRest C s.tick entry)
    (h : verifyMarks C s entry publication openOnly = .ok (entry', s')) :
    Advances C s s' ∧ MarksRest C s'.tick entry' ∧ SameButMarks entry entry' := by
  unfold verifyMarks at h
  split at h
  · obtain ⟨rfl, rfl⟩ := Prod.mk.inj (Except.ok.inj h)
    exact ⟨hs.advances, hmarks, rfl⟩
  obtain ⟨⟨result, s₁⟩, hroot, h⟩ := bind_eq_ok.mp h
  obtain ⟨hadv, hrests⟩ := root_spec hs hroot
  cases result with
  | error e => cases h
  | ok trustedRoot =>
    obtain ⟨⟨found, s₂⟩, hfound, h⟩ := bind_eq_ok.mp h
    have hpub₁ : WithChain C s₁.tick entry publication := fun payload hp =>
      ⟨(hpub payload hp).1.mono hadv.le, (hpub payload hp).2⟩
    obtain ⟨hadv', hpublished⟩ := publicationFor_spec hadv.sound hpub₁ hfound
    have hle := hadv.le.trans hadv'.le
    cases found with
    | none =>
      obtain ⟨rfl, rfl⟩ := Prod.mk.inj (Except.ok.inj h)
      exact ⟨hadv.trans hadv', hmarks.mono hle, rfl⟩
    | some published =>
      obtain ⟨hadv'', hmarks', hsame⟩ := verifyRefs_spec hadv'.sound
        ((hrests trustedRoot rfl).mono hadv'.le) (hpublished published rfl) (fun _ hr => hr)
        (hmarks.mono hle) h
      exact ⟨(hadv.trans hadv').trans hadv'', hmarks', hsame⟩

end Passes

end OidFed
