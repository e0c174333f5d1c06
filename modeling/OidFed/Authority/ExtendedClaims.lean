import OidFed.Js.Number
import OidFed.Statements.Builders
import OidFed.Storage.Lifecycle

/-!
# Claims in the extended listing (`authority/src/endpoints/extended-list-claims.ts`)

A request names the claims that it wants of every listed record. `extractClaims` looks each name up
in a table of extractors. The table is a plain object, so a name of `Object.prototype` finds a
function that is none of the extractors, or the prototype itself.

* `inheritedCall`: what calling such a member does. `constructor` returns the record.
* `parseClaimsParam`: the names that a request asks for.
* `Discloses`: the claims of an answer are the supported ones that were asked for, with the values
  of their extractors.
* `extractClaims_iff`: that holds exactly when no name of `Object.prototype` is asked for.
-/

namespace OidFed

open Js

/-- A stored record with all that the claims show of it. -/
structure ListedRecord extends SubordinateRecord where
  constraints : Option Json := none
  sourceEndpoint : Option String := none
  crit : Option (List String) := none
  metadataPolicyCrit : Option (List String) := none

/-- Why an extraction throws. -/
inductive ExtractError where
  /-- A value that is no function is called, or a function without an object. -/
  | typeError
  | statement (message : String)
  | storage (e : StorageError)
  deriving DecidableEq

/-- What the extractors use of a handler. -/
structure ClaimContext where
  entityId : String
  subordinateStatementTtlSeconds : Option Rat := none
  /-- `signEntityStatement` with the signer of the Federation keys. -/
  signEntityStatement : Payload → Except String String
  /-- `storage.trustMarks.listValidForSubject`. -/
  listValidForSubject : Option (String → Rat → Except StorageError (List TrustMarkRecord)) := none

/-! ## The extractors -/

section Extractors

variable (P : Platform) (ctx : ClaimContext)

def statementTtl : Rat := ctx.subordinateStatementTtlSeconds.getD defaultEntityStatementTtlSeconds

/-- `buildSubordinateStatement(ctx, record, now)` of `fetch.ts`. -/
def buildSubordinateStatement (record : ListedRecord) (now : Rat) : Except String String := do
  let payload ← buildSubordinateStatementPayload P {
    issuer := ctx.entityId
    subject := record.entityId
    jwks := record.jwks
    metadata := sanitizeSubordinateMetadata record.metadata
    metadataPolicy := record.metadataPolicy.filter Json.truthy
    constraints := record.constraints.filter Json.truthy
    sourceEndpoint := record.sourceEndpoint.filter fun s => s != ""
    crit := record.crit.filter fun l => !l.isEmpty
    metadataPolicyCrit := record.metadataPolicyCrit.filter fun l => !l.isEmpty
    now := now
    issuedAt := some now
    ttlSeconds := some (statementTtl ctx) }
  ctx.signEntityStatement payload

/-- A claim of a record; `none` where the value is undefined. -/
abbrev ClaimExtractor := ListedRecord → Rat → Except ExtractError (Option Json)

def trustMarksClaim (record : ListedRecord) (now : Rat) : Except ExtractError (Option Json) :=
  match ctx.listValidForSubject with
  | none => .ok (some (.arr []))
  | some listValidForSubject =>
    match listValidForSubject record.entityId now with
    | .error e => .error (.storage e)
    | .ok marks => .ok (some (.arr (marks.map fun m =>
        .obj [("id", .str m.trustMarkType), ("trust_mark", .str m.jwt)])))

def extendedListClaimExtractors : List (String × ClaimExtractor) :=
  [("subordinate_statement", fun record now =>
      match buildSubordinateStatement P ctx record now with
      | .error message => .error (.statement message)
      | .ok jwt => .ok (some (.str jwt))),
    ("iss", fun _ _ => .ok (some (.str ctx.entityId))),
    ("sub", fun record _ => .ok (some (.str record.entityId))),
    ("iat", fun _ now => .ok (some (.num now))),
    ("exp", fun _ now => .ok (some (.num (now + statementTtl ctx)))),
    ("jwks", fun record _ => .ok (some record.jwks)),
    ("metadata", fun record _ => .ok record.metadata),
    ("metadata_policy", fun record _ => .ok record.metadataPolicy),
    ("constraints", fun record _ => .ok record.constraints),
    ("crit", fun record _ => .ok (nonEmptyStrings record.crit)),
    ("metadata_policy_crit", fun record _ => .ok (nonEmptyStrings record.metadataPolicyCrit)),
    ("source_endpoint", fun record _ => .ok (record.sourceEndpoint.map .str)),
    ("trust_marks", trustMarksClaim ctx)]

end Extractors

/-! ## Inherited members -/

/-- A stored record as an object. -/
def recordObject (record : ListedRecord) : Json :=
  .obj ([("entityId", some (.str record.entityId)), ("jwks", some record.jwks),
    ("metadata", record.metadata), ("metadataPolicy", record.metadataPolicy),
    ("constraints", record.constraints), ("entityTypes", record.entityTypes.map stringArray),
    ("isIntermediate", record.isIntermediate.map .bool),
    ("sourceEndpoint", record.sourceEndpoint.map .str), ("crit", record.crit.map stringArray),
    ("metadataPolicyCrit", record.metadataPolicyCrit.map stringArray),
    ("createdAt", some (.num record.createdAt)), ("updatedAt", some (.num record.updatedAt))
    ].filterMap fun p : String × Option Json => p.2.map fun v => (p.1, v))

/-- A member of `Object.prototype`, called with a record and without an object. `Object(record)` is
the record, `toString` names the missing object, and the others throw. -/
def inheritedCall (name : String) (record : ListedRecord) : Except ExtractError (Option Json) :=
  if name = "constructor" then .ok (some (recordObject record))
  else if name = "toString" then .ok (some (.str "[object Undefined]"))
  else .error .typeError

/-! ## Extraction -/

/-- The value of a claim, or `none` if it is unknown or undefined. -/
def claimValue (P : Platform) (ctx : ClaimContext) (record : ListedRecord) (now : Rat)
    (claim : String) : Except ExtractError (Option Json) :=
  match readMembers (extendedListClaimExtractors P ctx) claim with
  | .own extractor => extractor record now
  | .builtin _ => inheritedCall claim record
  | .undefined => .ok none

/-- The loop of `extractClaims`, from the claims gathered so far. -/
def extractFrom (P : Platform) (ctx : ClaimContext) (record : ListedRecord) (now : Rat)
    (out : Dict String Json) (requestedClaims : List String) :
    Except ExtractError (Dict String Json) :=
  requestedClaims.foldlM (fun out claim => do
    match ← claimValue P ctx record now claim with
    | none => return out
    | some value => return out.set claim value) out

def extractClaims (P : Platform) (ctx : ClaimContext) (record : ListedRecord)
    (requestedClaims : List String) (now : Rat) : Except ExtractError (Dict String Json) :=
  extractFrom P ctx record now .empty requestedClaims

/-- `parseClaimsParam`, of the values of the parameter. -/
def parseClaimsParam (raw : List String) : List String :=
  (raw.flatMap fun value => (Json.splitText ',' value).map trim).filter fun token => token != ""

/-- The extractors of the table do not throw. -/
def TotalExtractors (P : Platform) (ctx : ClaimContext) (record : ListedRecord) (now : Rat) : Prop :=
  ∀ e ∈ extendedListClaimExtractors P ctx, ∃ v, e.2 record now = .ok v

/-- The claims of an answer are the supported ones asked for, with their extractors' values. -/
def Discloses (P : Platform) (ctx : ClaimContext) (record : ListedRecord) (now : Rat)
    (requestedClaims : List String) (out : Dict String Json) : Prop :=
  ∀ claim value, out.get? claim = some value ↔ claim ∈ requestedClaims ∧
    ∃ extractor, (extendedListClaimExtractors P ctx).lookup claim = some extractor ∧
      extractor record now = .ok (some value)

section Extraction

variable {P : Platform} {ctx : ClaimContext} {record : ListedRecord} {now : Rat}

/-! ## Single claims -/

/-- No supported claim has the name of an inherited member. -/
theorem extractors_not_inherited {claim : String} {extractor : ClaimExtractor}
    (h : (extendedListClaimExtractors P ctx).lookup claim = some extractor) :
    inherited claim = false := by
  have hnames : ∀ name ∈ (extendedListClaimExtractors P ctx).map Prod.fst,
      inherited name = false := by
    have hlist : (extendedListClaimExtractors P ctx).map Prod.fst =
        ["subordinate_statement", "iss", "sub", "iat", "exp", "jwks", "metadata", "metadata_policy",
          "constraints", "crit", "metadata_policy_crit", "source_endpoint", "trust_marks"] := rfl
    rw [hlist]
    decide
  have hmem := (List.lookup_eq_some_iff.mp h)
  obtain ⟨before, after, hsplit, -⟩ := hmem
  exact hnames claim (by rw [hsplit]; simp)

/-- A name of `Object.prototype` finds what is inherited. -/
theorem claimValue_inherited {claim : String} (h : inherited claim = true) :
    claimValue P ctx record now claim = inheritedCall claim record := by
  have hlookup : (extendedListClaimExtractors P ctx).lookup claim = none := by
    cases hl : (extendedListClaimExtractors P ctx).lookup claim with
    | none => rfl
    | some extractor => simp [extractors_not_inherited hl] at h
  obtain ⟨b, hb⟩ := Option.isSome_iff_exists.mp h
  simp only [claimValue, readMembers, readOr, hlookup, hb]

theorem claimValue_of_not_inherited {claim : String} (h : inherited claim = false) :
    claimValue P ctx record now claim =
      match (extendedListClaimExtractors P ctx).lookup claim with
      | some extractor => extractor record now
      | none => .ok none := by
  rw [claimValue, readMembers, readOr_of_not_inherited _ h]
  cases (extendedListClaimExtractors P ctx).lookup claim <;> rfl

/-- An inherited member gives a value or throws. -/
theorem inheritedCall_ne_none (claim : String) (record : ListedRecord) :
    inheritedCall claim record ≠ .ok none := by
  unfold inheritedCall
  split
  · nofun
  · split <;> nofun

/-! ## All claims of a request -/

/-- What a claim adds to what has been gathered. -/
def withClaim (out : Dict String Json) (claim : String) : Option Json → Dict String Json
  | none => out
  | some value => out.set claim value

theorem extractFrom_cons (out : Dict String Json) (claim : String) (rest : List String) :
    extractFrom P ctx record now out (claim :: rest) =
      claimValue P ctx record now claim >>= fun v =>
        extractFrom P ctx record now (withClaim out claim v) rest := by
  simp only [extractFrom, List.foldlM_cons, bind_assoc]
  congr 1
  funext v
  cases v <;> rfl

/-- What is gathered: the values of the claims, each under its name. -/
theorem extractFrom_get? {requestedClaims : List String} {out out' : Dict String Json}
    (hout : ∀ claim value, out.get? claim = some value →
      claimValue P ctx record now claim = .ok (some value))
    (h : extractFrom P ctx record now out requestedClaims = .ok out') :
    (∀ claim ∈ requestedClaims, ∃ v, claimValue P ctx record now claim = .ok v) ∧
      ∀ claim value, out'.get? claim = some value ↔ out.get? claim = some value ∨
        claim ∈ requestedClaims ∧ claimValue P ctx record now claim = .ok (some value) := by
  induction requestedClaims generalizing out with
  | nil =>
    obtain rfl : out = out' := by simpa [extractFrom, pure, Except.pure] using h
    simp
  | cons claim rest ih =>
    rw [extractFrom_cons] at h
    obtain ⟨v, hv, hrest⟩ := bind_eq_ok.mp h
    cases v with
    | none =>
      obtain ⟨hall, hget⟩ := ih hout hrest
      refine ⟨fun c hc => ?_, fun c value => ?_⟩
      · rcases List.mem_cons.mp hc with rfl | hc
        · exact ⟨none, hv⟩
        · exact hall c hc
      · rw [hget, List.mem_cons]
        constructor
        · exact Or.imp_right fun hc => ⟨.inr hc.1, hc.2⟩
        · refine Or.imp_right fun hc => ⟨hc.1.resolve_left ?_, hc.2⟩
          rintro rfl
          rw [hv] at hc
          exact absurd hc.2 (by simp)
    | some written =>
      -- the new value is that of its claim, as are the ones gathered before
      have hset : ∀ c value, (out.set claim written).get? c = some value →
          claimValue P ctx record now c = .ok (some value) := by
        intro c value hc
        rw [Dict.get?_set] at hc
        split at hc
        · rename_i heq
          rw [heq, hv, Option.some.inj hc]
        · exact hout c value hc
      obtain ⟨hall, hget⟩ := ih hset hrest
      refine ⟨fun c hc => ?_, fun c value => ?_⟩
      · rcases List.mem_cons.mp hc with rfl | hc
        · exact ⟨some written, hv⟩
        · exact hall c hc
      · rw [hget, List.mem_cons, Dict.get?_set]
        -- a claim that is asked for twice is written twice, with the same value
        by_cases hc : c = claim
        · subst hc
          rw [if_pos rfl, hv]
          constructor
          · rintro (hw | ⟨-, hw⟩)
            · exact .inr ⟨.inl rfl, by rw [hw]⟩
            · exact .inr ⟨.inl rfl, hw⟩
          · rintro (ho | ⟨-, hw⟩)
            · have := hout c value ho
              rw [hv] at this
              exact .inl (Except.ok.inj this)
            · exact .inl (Except.ok.inj hw)
        · rw [if_neg hc]
          simp only [hc, false_or]

theorem extractFrom_isOk {requestedClaims : List String}
    (h : ∀ claim ∈ requestedClaims, ∃ v, claimValue P ctx record now claim = .ok v)
    (out : Dict String Json) :
    ∃ out', extractFrom P ctx record now out requestedClaims = .ok out' := by
  induction requestedClaims generalizing out with
  | nil => exact ⟨out, rfl⟩
  | cons claim rest ih =>
    obtain ⟨v, hv⟩ := h claim List.mem_cons_self
    obtain ⟨out', hout'⟩ := ih (fun c hc => h c (List.mem_cons_of_mem _ hc))
      (withClaim out claim v)
    exact ⟨out', by rw [extractFrom_cons, hv]; exact hout'⟩

theorem extractClaims_get? {requestedClaims : List String} {out : Dict String Json}
    (h : extractClaims P ctx record requestedClaims now = .ok out) :
    (∀ claim ∈ requestedClaims, ∃ v, claimValue P ctx record now claim = .ok v) ∧
      ∀ claim value, out.get? claim = some value ↔
        claim ∈ requestedClaims ∧ claimValue P ctx record now claim = .ok (some value) := by
  obtain ⟨hall, hget⟩ := extractFrom_get? (fun _ _ hnone => by simp at hnone) h
  refine ⟨hall, fun claim value => ?_⟩
  rw [hget]
  simp

/-- With extractors that do not throw, an answer discloses the supported claims asked for and
nothing else exactly when no name of `Object.prototype` is asked for. -/
theorem extractClaims_iff (htotal : TotalExtractors P ctx record now)
    (requestedClaims : List String) :
    (∃ out, extractClaims P ctx record requestedClaims now = .ok out ∧
      Discloses P ctx record now requestedClaims out) ↔
      ∀ claim ∈ requestedClaims, inherited claim = false := by
  constructor
  · rintro ⟨out, hextract, hdiscloses⟩ claim hclaim
    by_contra hne
    have hinherited : inherited claim = true := by simpa using hne
    obtain ⟨hall, hget⟩ := extractClaims_get? hextract
    obtain ⟨v, hv⟩ := hall claim hclaim
    cases v with
    | none =>
      rw [claimValue_inherited hinherited] at hv
      exact inheritedCall_ne_none claim record hv
    | some value =>
      -- the value of an inherited member is disclosed under its name
      have hout := (hget claim value).mpr ⟨hclaim, hv⟩
      obtain ⟨-, extractor, hlookup, -⟩ := (hdiscloses claim value).mp hout
      exact hne (extractors_not_inherited hlookup)
  · intro hnone
    have hvalue : ∀ claim ∈ requestedClaims, ∃ v, claimValue P ctx record now claim = .ok v := by
      intro claim hclaim
      rw [claimValue_of_not_inherited (hnone claim hclaim)]
      cases hlookup : (extendedListClaimExtractors P ctx).lookup claim with
      | none => exact ⟨none, rfl⟩
      | some extractor =>
        obtain ⟨before, after, hsplit, -⟩ := List.lookup_eq_some_iff.mp hlookup
        exact htotal (claim, extractor) (by rw [hsplit]; simp)
    obtain ⟨out, hout⟩ := extractFrom_isOk hvalue .empty
    refine ⟨out, hout, fun claim value => ?_⟩
    rw [(extractClaims_get? hout).2]
    refine and_congr_right fun hclaim => ?_
    rw [claimValue_of_not_inherited (hnone claim hclaim)]
    cases (extendedListClaimExtractors P ctx).lookup claim with
    | none => simp
    | some extractor => simp

end Extraction

/-! ## A record -/

def exampleClaimContext : ClaimContext where
  entityId := "https://ta.example"
  signEntityStatement _ := .ok "signed"

def exampleListedRecord : ListedRecord where
  entityId := "https://rp.example"
  jwks := .obj [("keys", .arr [tableKey "rp-key"])]
  metadata := some (.obj [("openid_relying_party", .obj [("client_name", .str "RP")])])
  createdAt := 1000
  updatedAt := 1000

theorem exampleClaims_total :
    TotalExtractors (tablePlatform []) exampleClaimContext exampleListedRecord 1500 := by
  have hall : ((extendedListClaimExtractors (tablePlatform []) exampleClaimContext).all fun e =>
      (e.2 exampleListedRecord 1500).isOk) = true := by
    decide +kernel
  intro e he
  have hok := List.all_eq_true.mp hall e he
  cases hv : e.2 exampleListedRecord 1500 with
  | ok v => exact ⟨v, rfl⟩
  | error _ => simp [hv, Except.isOk, Except.toBool] at hok

theorem exampleClaims_disclosed : ∃ out,
    extractClaims (tablePlatform []) exampleClaimContext exampleListedRecord ["sub", "unknown"] 1500 =
        .ok out ∧
      Discloses (tablePlatform []) exampleClaimContext exampleListedRecord 1500 ["sub", "unknown"]
        out :=
  (extractClaims_iff exampleClaims_total ["sub", "unknown"]).mpr (by decide)

/-- A request for `constructor` gets the whole record. -/
theorem constructor_disclosed :
    extractClaims (tablePlatform []) exampleClaimContext exampleListedRecord
        (parseClaimsParam ["constructor"]) 1500 =
      .ok (Dict.ofEntries [("constructor", recordObject exampleListedRecord)]) ∧
    ¬ ∃ out, extractClaims (tablePlatform []) exampleClaimContext exampleListedRecord
        (parseClaimsParam ["constructor"]) 1500 = .ok out ∧
      Discloses (tablePlatform []) exampleClaimContext exampleListedRecord 1500
        (parseClaimsParam ["constructor"]) out := by
  have hextract : extractClaims (tablePlatform []) exampleClaimContext exampleListedRecord
      (parseClaimsParam ["constructor"]) 1500 =
        .ok (Dict.ofEntries [("constructor", recordObject exampleListedRecord)]) := by
    decide +kernel
  refine ⟨hextract, ?_⟩
  rintro ⟨out, hout, hdiscloses⟩
  rw [hextract] at hout
  obtain rfl := Except.ok.inj hout
  obtain ⟨-, extractor, hlookup, -⟩ :=
    (hdiscloses "constructor" (recordObject exampleListedRecord)).mp (by decide +kernel)
  exact absurd (extractors_not_inherited hlookup) (by decide)

end OidFed
