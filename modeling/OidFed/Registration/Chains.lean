import OidFed.Chain.Selection
import OidFed.Client.EntityKeys

/-!
# Trust chains of a registration (`oidc/src/registration/helpers.ts`)

An OP validates a chain that a relying party supplies, or resolves the chains of the relying party and
takes the shortest valid one.

A relying party has a chain of the OP that it prefers. It registers with a chain that ends at the same
anchor, or at the anchor of some other chain of the OP.

* `validateSuppliedTrustChain`, `resolveAndValidateBestChain`: the chain of a registration.
* `resolveValidRegistrationChains`: the valid chains of an entity, each with its raw statements.
* `selectSharedRegistrationTrustChains`: the two chains of a registration.
* `SharesAnchor`: what a selection returns. `selectSharedRegistrationTrustChains_iff`: when it returns
  one.
-/

namespace OidFed

open Js

/-- What metadata resolution and the marks give that go on outside of the validation of a chain. -/
abbrev ResumedEvidence :=
  Except JsError (Except (List ValidationError) (FederationMetadata × List ValidatedTrustMark))

/-- How a validation settles; one that goes on outside keeps the chain that it has authenticated. -/
def ValidationResult.resume (resumed : ResumedEvidence) : ValidationResult → ChainOutcome
  | invalid errors => .ok (.error errors)
  | valid chain _ => .ok (.ok chain)
  | outside chain => resumed.map fun evidence => evidence.map fun e =>
      { chain with resolvedMetadata := e.1, trustMarks := e.2 }

/-! ## The chain that an OP validates -/

/-- The items of an array of texts. -/
def textItems : Json → Option (List String)
  | .arr items => items.mapM Json.string?
  | _ => none

def parseTrustChainJsonBody (H : ClientHost) (body : String) :
    Except FederationError (List String) :=
  match H.parseJson body with
  | none => .error (federationError .InvalidRequest "Invalid trust-chain+json body")
  | some parsed =>
    match textItems parsed with
    | some (jwt :: rest) => .ok (jwt :: rest)
    | _ => .error (federationError .InvalidRequest
        "trust-chain+json must be a non-empty array of JWT strings")

section Supplied

variable (P : Platform)

/-- The anchors, of which each name is an Entity Identifier. -/
def normalizedAnchors : List (String × JWKSet) → TrustAnchorSet →
    Except FederationError TrustAnchorSet
  | [], normalized => .ok normalized
  | (anchorId, jwks) :: rest, normalized =>
    if isValidEntityId P anchorId then normalizedAnchors rest (normalized.set anchorId jwks)
    else .error (federationError .InvalidTrustChain
      s!"Invalid Trust Anchor entity ID '{anchorId}'.")

def requireNonEmptyTrustAnchors (trustAnchors : TrustAnchorSet) :
    Except FederationError TrustAnchorSet :=
  if trustAnchors.members.isEmpty then
    .error (federationError .InvalidTrustChain
      "OP-side registration requires a non-empty Trust Anchor set.")
  else normalizedAnchors P trustAnchors.members .empty

variable (trustAnchors : TrustAnchorSet) (options : TrustChainValidationOptions)

/-- Validate a chain that was supplied, under the readings of the clock of the validation. -/
def validateSuppliedTrustChain (chain : Option Json) (expectedSubject label : String)
    (audience : Option String) (clock : Clock) (resumed : ResumedEvidence) :
    Except JsError (Except FederationError ValidatedTrustChain) :=
  match chain.bind textItems with
  | some (jwt :: rest) => do
    let result ← validateTrustChain P (jwt :: rest) trustAnchors
      { options with
        verboseErrors := true
        explicitRegistrationAudience := audience.or options.explicitRegistrationAudience } clock
    match ← result.resume resumed with
    | .error errors =>
      let message := (errors.head?.map (·.message)).getD "unknown error"
      return .error (federationError .InvalidTrustChain s!"{label} validation failed: {message}")
    | .ok validated =>
      if validated.entityId != expectedSubject then
        return .error (federationError .InvalidTrustChain
          (s!"{label} subject '{validated.entityId}' does not match expected subject " ++
            s!"'{expectedSubject}'"))
      else return .ok validated
  | _ => .ok (.error (federationError .InvalidTrustChain
      s!"{label} must be a non-empty array of JWT strings"))

/-- Return the shortest valid chain of the candidates. -/
def resolveAndValidateBestChain (resolved : ResolvedChains) :
    Except JsError (Except FederationError ValidatedTrustChain) :=
  if resolved.candidates.isEmpty then
    let errorMsgs := "; ".intercalate (resolved.errors.map (·.description))
    .ok (.error (federationError .InvalidTrustChain
      ("Failed to resolve trust chain for RP: " ++
        if errorMsgs = "" then "no chains found" else errorMsgs)))
  else do
    let (validChains, _) ← validateCandidates P trustAnchors options resolved.candidates
    match shortestChain validChains with
    | none => return .error (federationError .InvalidTrustChain
        "No valid trust chains found for RP")
    | some bestChain => return .ok bestChain

end Supplied

/-! ## The chains that an RP selects -/

structure ValidRegistrationChain where
  statements : List String
  chain : ValidatedTrustChain

structure SharedRegistrationTrustChains where
  rpChainStatements : List String
  rpChain : ValidatedTrustChain
  opChain : ValidatedTrustChain
  trustAnchorId : String

/-- The chain with the fewest statements, the first one of these. Of no chains, it throws. -/
def shortestRegistrationChain (chains : List ValidRegistrationChain) :
    Except JsError ValidRegistrationChain :=
  match (chains.mergeSort fun a b =>
      decide (a.chain.statements.length ≤ b.chain.statements.length)).head? with
  | some selected => .ok selected
  | none => .error .typeError

section Select

variable (P : Platform) (trustAnchors : TrustAnchorSet) (options : TrustChainValidationOptions)

/-- The loop over the resolved chains. -/
def validRegistrationChains : List Candidate → Except JsError (List ValidRegistrationChain)
  | [] => .ok []
  | c :: rest => do
    let validation ← c.validate P trustAnchors options
    let validChains ← validRegistrationChains rest
    match validation with
    | .ok chain => return { statements := c.chain.statements, chain } :: validChains
    | .error _ => return validChains

/-- The valid chains of an entity, of which `resolved` are the candidates. -/
def resolveValidRegistrationChains (resolved : ResolvedChains) (label : String) :
    Except JsError (Except FederationError (List ValidRegistrationChain)) :=
  if resolved.candidates.isEmpty then
    let errorMsgs := "; ".intercalate (resolved.errors.map (·.description))
    .ok (.error (federationError .InvalidTrustChain
      (s!"Failed to resolve trust chain for {label}: " ++
        if errorMsgs = "" then "no chains found" else errorMsgs)))
  else do
    let validChains ← validRegistrationChains P trustAnchors options resolved.candidates
    if validChains.isEmpty then
      return .error (federationError .InvalidTrustChain
        s!"No valid trust chains found for {label}")
    else return .ok validChains

/-- The loop over the chains of the RP: the first one with an anchor that a chain of the OP has. -/
def firstSharedChains (opChains : List ValidRegistrationChain) :
    List ValidRegistrationChain → Except JsError (Option SharedRegistrationTrustChains)
  | [] => .ok none
  | rpChain :: rest =>
    let matchingOpChains := opChains.filter fun candidate =>
      candidate.chain.trustAnchorId == rpChain.chain.trustAnchorId
    if 0 < matchingOpChains.length then do
      let opChain ← shortestRegistrationChain matchingOpChains
      return some { rpChainStatements := rpChain.statements, rpChain := rpChain.chain
                    opChain := opChain.chain, trustAnchorId := rpChain.chain.trustAnchorId }
    else firstSharedChains opChains rest

/-- Select a chain of the RP and a chain of the OP with one anchor. The chains of the OP are resolved
where no chain of the RP ends at the anchor of the preferred one. -/
def selectSharedRegistrationTrustChains (rpResolved opResolved : ResolvedChains)
    (preferredOpChain : ValidatedTrustChain) :
    Except JsError (Except FederationError SharedRegistrationTrustChains) := do
  match ← resolveValidRegistrationChains P trustAnchors options rpResolved "RP" with
  | .error e => return .error e
  | .ok rpChains =>
    let preferredRpChains := rpChains.filter fun candidate =>
      candidate.chain.trustAnchorId == preferredOpChain.trustAnchorId
    if 0 < preferredRpChains.length then
      let rpChain ← shortestRegistrationChain preferredRpChains
      return .ok { rpChainStatements := rpChain.statements, rpChain := rpChain.chain
                   opChain := preferredOpChain
                   trustAnchorId := preferredOpChain.trustAnchorId }
    else
      match ← resolveValidRegistrationChains P trustAnchors options opResolved "OP" with
      | .error e => return .error e
      | .ok opChains =>
        match ← firstSharedChains opChains rpChains with
        | some shared => return .ok shared
        | none => return .error (federationError .InvalidTrustAnchor
            "No shared Trust Anchor between RP and OP")

/-! ## What a selection is -/

/-- Some valid chain of the candidates ends at an anchor. -/
def EndsAt (candidates : List Candidate) (anchor : String) : Prop :=
  ∃ c ∈ candidates, ∃ v, c.Validates P trustAnchors options v ∧ v.trustAnchorId = anchor

/-- Some valid chain of the RP ends at the anchor of some valid chain of the OP. -/
def SharedWithOp (rpResolved opResolved : ResolvedChains) : Prop :=
  ∃ anchor, EndsAt P trustAnchors options rpResolved.candidates anchor ∧
    EndsAt P trustAnchors options opResolved.candidates anchor

/-- No validation of a candidate throws. -/
def NoneThrows (candidates : List Candidate) : Prop :=
  ∀ c ∈ candidates, ¬ c.Throws P trustAnchors options

/-- The chains of a selection end at its anchor, the one of the RP was validated from the raw
statements, and the one of the OP is the preferred one where it can be. -/
structure SharesAnchor (rpResolved opResolved : ResolvedChains)
    (preferredOpChain : ValidatedTrustChain) (s : SharedRegistrationTrustChains) : Prop where
  rpStatements : ∃ c ∈ rpResolved.candidates, c.chain.statements = s.rpChainStatements ∧
    c.Validates P trustAnchors options s.rpChain
  opChain : s.opChain = preferredOpChain ∨
    ∃ c ∈ opResolved.candidates, c.Validates P trustAnchors options s.opChain
  rpAnchor : s.rpChain.trustAnchorId = s.trustAnchorId
  opAnchor : s.opChain.trustAnchorId = s.trustAnchorId
  preferred : EndsAt P trustAnchors options rpResolved.candidates preferredOpChain.trustAnchorId →
    s.opChain = preferredOpChain

/-- A selection finds a shared anchor where there is one. -/
structure FindsSharedAnchor (rpResolved opResolved : ResolvedChains)
    (preferredOpChain : ValidatedTrustChain) : Prop where
  succeeds : (∃ s, selectSharedRegistrationTrustChains P trustAnchors options rpResolved opResolved
      preferredOpChain = .ok (.ok s)) ↔
    EndsAt P trustAnchors options rpResolved.candidates preferredOpChain.trustAnchorId ∨
      SharedWithOp P trustAnchors options rpResolved opResolved
  shares : ∀ s, selectSharedRegistrationTrustChains P trustAnchors options rpResolved opResolved
      preferredOpChain = .ok (.ok s) →
    SharesAnchor P trustAnchors options rpResolved opResolved preferredOpChain s

end Select

/-! ## The chains of one entity -/

/-- Of some chains, one is the shortest. -/
theorem shortestRegistrationChain_mem {chains : List ValidRegistrationChain}
    (h : 0 < chains.length) :
    ∃ selected ∈ chains, shortestRegistrationChain chains = .ok selected := by
  have hperm := List.mergeSort_perm chains fun a b =>
    decide (a.chain.statements.length ≤ b.chain.statements.length)
  obtain ⟨selected, hhead⟩ := Option.isSome_iff_exists.mp
    (List.isSome_head?.mpr (List.ne_nil_of_length_pos (hperm.length_eq ▸ h)))
  refine ⟨selected, hperm.subset (List.mem_of_head? hhead), ?_⟩
  rw [shortestRegistrationChain, hhead]

section Select

variable {P : Platform} {trustAnchors : TrustAnchorSet} {options : TrustChainValidationOptions}
  {candidates : List Candidate} {chains : List ValidRegistrationChain}

/-- A loop that does not throw collects the candidates that validate, with their statements. -/
theorem mem_validRegistrationChains
    (h : validRegistrationChains P trustAnchors options candidates = .ok chains)
    (r : ValidRegistrationChain) : r ∈ chains ↔ ∃ c ∈ candidates,
      c.chain.statements = r.statements ∧ c.Validates P trustAnchors options r.chain := by
  induction candidates generalizing chains with
  | nil =>
    obtain rfl := Except.ok.inj h
    simp
  | cons c rest ih =>
    obtain ⟨validation, hc, h⟩ := bind_eq_ok.mp h
    obtain ⟨others, hrest, h⟩ := bind_eq_ok.mp h
    rw [List.exists_mem_cons_iff, ← ih hrest]
    cases validation with
    | ok chain =>
      obtain rfl := Except.ok.inj h
      have hhead : r = { statements := c.chain.statements, chain } ↔
          c.chain.statements = r.statements ∧ c.Validates P trustAnchors options r.chain := by
        rw [Candidate.Validates, hc]
        constructor
        · rintro rfl
          exact ⟨rfl, rfl⟩
        · rintro ⟨hstatements, hchain⟩
          obtain rfl : chain = r.chain := Except.ok.inj (Except.ok.inj hchain)
          rw [hstatements]
      rw [List.mem_cons, hhead]
    | error errors =>
      obtain rfl := Except.ok.inj h
      have hhead : ¬ c.Validates P trustAnchors options r.chain := by
        rw [Candidate.Validates, hc]
        rintro ⟨⟩
      simp [hhead]

theorem validRegistrationChains_isOk_iff :
    (∃ chains, validRegistrationChains P trustAnchors options candidates = .ok chains) ↔
      NoneThrows P trustAnchors options candidates := by
  induction candidates with
  | nil => exact iff_of_true ⟨[], rfl⟩ fun c hc => absurd hc List.not_mem_nil
  | cons c rest ih =>
    rw [NoneThrows, List.forall_mem_cons]
    constructor
    · rintro ⟨chains, h⟩
      obtain ⟨validation, hc, h⟩ := bind_eq_ok.mp h
      obtain ⟨others, hrest, -⟩ := bind_eq_ok.mp h
      refine ⟨?_, ih.mp ⟨others, hrest⟩⟩
      rintro ⟨e, he⟩
      rw [hc] at he
      cases he
    · rintro ⟨hc, hrest⟩
      obtain ⟨others, hothers⟩ := ih.mpr hrest
      cases hvalidation : c.validate P trustAnchors options with
      | error e => exact absurd ⟨e, hvalidation⟩ hc
      | ok validation =>
        rw [validRegistrationChains, hvalidation, hothers]
        cases validation with
        | ok chain => exact ⟨_, rfl⟩
        | error errors => exact ⟨_, rfl⟩

theorem endsAt_iff (h : validRegistrationChains P trustAnchors options candidates = .ok chains)
    {anchor : String} : EndsAt P trustAnchors options candidates anchor ↔
      ∃ r ∈ chains, r.chain.trustAnchorId = anchor := by
  constructor
  · rintro ⟨c, hc, v, hv, hanchor⟩
    exact ⟨⟨c.chain.statements, v⟩, (mem_validRegistrationChains h _).mpr ⟨c, hc, rfl, hv⟩, hanchor⟩
  · rintro ⟨r, hr, hanchor⟩
    obtain ⟨c, hc, -, hv⟩ := (mem_validRegistrationChains h r).mp hr
    exact ⟨c, hc, r.chain, hv, hanchor⟩

/-- The chains of an entity are those of the loop, where there are some. -/
theorem resolveValidRegistrationChains_eq_ok {resolved : ResolvedChains} {label : String} :
    resolveValidRegistrationChains P trustAnchors options resolved label = .ok (.ok chains) ↔
      validRegistrationChains P trustAnchors options resolved.candidates = .ok chains ∧
        chains ≠ [] := by
  rw [resolveValidRegistrationChains]
  constructor
  · intro h
    split at h
    · cases h
    obtain ⟨validChains, hvalid, h⟩ := bind_eq_ok.mp h
    split at h
    · cases h
    · rename_i hne
      obtain rfl := Except.ok.inj (Except.ok.inj h)
      exact ⟨hvalid, by simpa using hne⟩
  · rintro ⟨hvalid, hne⟩
    have hsome : resolved.candidates.isEmpty = false := by
      rw [List.isEmpty_eq_false_iff]
      intro hnone
      rw [hnone] at hvalid
      exact hne (Except.ok.inj hvalid).symm
    have hchains : chains.isEmpty = false := List.isEmpty_eq_false_iff.mpr hne
    simp [hsome, hvalid, hchains, bind, Except.bind, pure, Except.pure]

/-! ## The selection -/

/-- The chains with an anchor: there are some exactly where one of the chains has it. -/
theorem withAnchor_length_pos {anchor : String} :
    0 < (chains.filter fun r => r.chain.trustAnchorId == anchor).length ↔
      ∃ r ∈ chains, r.chain.trustAnchorId = anchor := by
  rw [List.length_pos_iff_exists_mem]
  simp

theorem shortest_withAnchor {anchor : String} (h : ∃ r ∈ chains, r.chain.trustAnchorId = anchor) :
    ∃ r ∈ chains, r.chain.trustAnchorId = anchor ∧ shortestRegistrationChain
      (chains.filter fun r => r.chain.trustAnchorId == anchor) = .ok r := by
  obtain ⟨r, hr, hshortest⟩ := shortestRegistrationChain_mem (withAnchor_length_pos.mpr h)
  obtain ⟨hmem, hanchor⟩ := List.mem_filter.mp hr
  exact ⟨r, hmem, by simpa using hanchor, hshortest⟩

/-- The loop does not throw. It finds two chains with one anchor, or there are none. -/
theorem firstSharedChains_cases (opChains rpChains : List ValidRegistrationChain) :
    (∃ r ∈ rpChains, ∃ o ∈ opChains, o.chain.trustAnchorId = r.chain.trustAnchorId ∧
      firstSharedChains opChains rpChains = .ok (some
        { rpChainStatements := r.statements, rpChain := r.chain, opChain := o.chain
          trustAnchorId := r.chain.trustAnchorId })) ∨
    ((∀ r ∈ rpChains, ∀ o ∈ opChains, o.chain.trustAnchorId ≠ r.chain.trustAnchorId) ∧
      firstSharedChains opChains rpChains = .ok none) := by
  induction rpChains with
  | nil => exact .inr ⟨by simp, rfl⟩
  | cons r rest ih =>
    rw [firstSharedChains]
    by_cases hshared : ∃ o ∈ opChains, o.chain.trustAnchorId = r.chain.trustAnchorId
    · obtain ⟨o, ho, hanchor, hshortest⟩ := shortest_withAnchor hshared
      refine .inl ⟨r, List.mem_cons_self, o, ho, hanchor, ?_⟩
      rw [if_pos (withAnchor_length_pos.mpr hshared), hshortest]
      rfl
    · rw [if_neg (mt withAnchor_length_pos.mp hshared)]
      rcases ih with ⟨r', hr', hfound⟩ | ⟨hnone, hloop⟩
      · exact .inl ⟨r', List.mem_cons_of_mem _ hr', hfound⟩
      · refine .inr ⟨List.forall_mem_cons.mpr ⟨fun o ho hanchor => ?_, hnone⟩, hloop⟩
        exact hshared ⟨o, ho, hanchor⟩

variable {rpResolved opResolved : ResolvedChains} {preferredOpChain : ValidatedTrustChain}
  {rpChains : List ValidRegistrationChain}

variable (opResolved) in
/-- With a chain of the RP at the preferred anchor, the OP keeps its chain. -/
theorem selectShared_preferred
    (hrp : validRegistrationChains P trustAnchors options rpResolved.candidates = .ok rpChains)
    (h : ∃ r ∈ rpChains, r.chain.trustAnchorId = preferredOpChain.trustAnchorId) :
    ∃ r ∈ rpChains, r.chain.trustAnchorId = preferredOpChain.trustAnchorId ∧
      selectSharedRegistrationTrustChains P trustAnchors options rpResolved opResolved
        preferredOpChain = .ok (.ok
          { rpChainStatements := r.statements, rpChain := r.chain, opChain := preferredOpChain
            trustAnchorId := preferredOpChain.trustAnchorId }) := by
  have hne : rpChains ≠ [] := by
    rintro rfl
    obtain ⟨r, hr, -⟩ := h
    cases hr
  obtain ⟨r, hr, hanchor, hshortest⟩ := shortest_withAnchor h
  refine ⟨r, hr, hanchor, ?_⟩
  rw [selectSharedRegistrationTrustChains, resolveValidRegistrationChains_eq_ok.mpr ⟨hrp, hne⟩]
  simp only [bind, Except.bind, if_pos (withAnchor_length_pos.mpr h), hshortest]
  rfl

/-- Without one, it takes a chain of its own at an anchor of the RP. -/
theorem selectShared_other
    (hrp : validRegistrationChains P trustAnchors options rpResolved.candidates = .ok rpChains)
    (h : ¬ ∃ r ∈ rpChains, r.chain.trustAnchorId = preferredOpChain.trustAnchorId)
    (s : SharedRegistrationTrustChains) :
    selectSharedRegistrationTrustChains P trustAnchors options rpResolved opResolved
        preferredOpChain = .ok (.ok s) ↔
      ∃ opChains, validRegistrationChains P trustAnchors options opResolved.candidates =
        .ok opChains ∧ firstSharedChains opChains rpChains = .ok (some s) := by
  have hlength := mt withAnchor_length_pos.mp h
  constructor
  · intro hok
    obtain ⟨result, hresult, hok⟩ := bind_eq_ok.mp hok
    cases result with
    | error e => cases hok
    | ok found =>
      obtain ⟨hfound, -⟩ := resolveValidRegistrationChains_eq_ok.mp hresult
      obtain rfl : rpChains = found := Except.ok.inj (hrp.symm.trans hfound)
      simp only [if_neg hlength] at hok
      obtain ⟨opResult, hopResult, hok⟩ := bind_eq_ok.mp hok
      cases opResult with
      | error e => cases hok
      | ok opChains =>
        obtain ⟨hop, -⟩ := resolveValidRegistrationChains_eq_ok.mp hopResult
        obtain ⟨shared?, hshared, hok⟩ := bind_eq_ok.mp hok
        cases shared? with
        | none => cases hok
        | some shared =>
          obtain rfl := Except.ok.inj (Except.ok.inj hok)
          exact ⟨opChains, hop, hshared⟩
  · rintro ⟨opChains, hop, hshared⟩
    obtain ⟨r, hr, o, ho, -⟩ | ⟨-, hnone⟩ := firstSharedChains_cases opChains rpChains
    · rw [selectSharedRegistrationTrustChains, resolveValidRegistrationChains_eq_ok.mpr
        ⟨hrp, List.ne_nil_of_mem hr⟩]
      simp only [bind, Except.bind, if_neg hlength]
      rw [resolveValidRegistrationChains_eq_ok.mpr ⟨hop, List.ne_nil_of_mem ho⟩]
      simp only [hshared]
      rfl
    · rw [hshared] at hnone
      cases hnone

theorem selectShared_rp {s : SharedRegistrationTrustChains}
    (h : selectSharedRegistrationTrustChains P trustAnchors options rpResolved opResolved
      preferredOpChain = .ok (.ok s)) :
    ∃ rpChains,
      validRegistrationChains P trustAnchors options rpResolved.candidates = .ok rpChains := by
  obtain ⟨result, hresult, h⟩ := bind_eq_ok.mp h
  cases result with
  | error e => cases h
  | ok rpChains => exact ⟨rpChains, (resolveValidRegistrationChains_eq_ok.mp hresult).1⟩

/-- What is selected shares an anchor. -/
theorem selectShared_shares {s : SharedRegistrationTrustChains}
    (h : selectSharedRegistrationTrustChains P trustAnchors options rpResolved opResolved
      preferredOpChain = .ok (.ok s)) :
    SharesAnchor P trustAnchors options rpResolved opResolved preferredOpChain s := by
  obtain ⟨rpChains, hrp⟩ := selectShared_rp h
  by_cases hpreferred : ∃ r ∈ rpChains, r.chain.trustAnchorId = preferredOpChain.trustAnchorId
  · obtain ⟨r, hr, hanchor, hselect⟩ := selectShared_preferred opResolved hrp hpreferred
    obtain rfl := Except.ok.inj (Except.ok.inj (hselect.symm.trans h))
    exact ⟨(mem_validRegistrationChains hrp r).mp hr, .inl rfl, hanchor, rfl, fun _ => rfl⟩
  · obtain ⟨opChains, hop, hshared⟩ := (selectShared_other hrp hpreferred s).mp h
    obtain ⟨r, hr, o, ho, hanchor, hfound⟩ | ⟨-, hnone⟩ :=
      firstSharedChains_cases opChains rpChains
    · obtain rfl := Option.some.inj (Except.ok.inj (hfound.symm.trans hshared))
      obtain ⟨c, hc, -, hv⟩ := (mem_validRegistrationChains hop o).mp ho
      exact ⟨(mem_validRegistrationChains hrp r).mp hr, .inr ⟨c, hc, hv⟩, rfl, hanchor,
        fun hends => absurd ((endsAt_iff hrp).mp hends) hpreferred⟩
    · rw [hshared] at hnone
      cases hnone

/-- A selection succeeds exactly where there is a shared anchor and no validation up to it throws. -/
theorem selectShared_succeeds_iff :
    (∃ s, selectSharedRegistrationTrustChains P trustAnchors options rpResolved opResolved
        preferredOpChain = .ok (.ok s)) ↔
      NoneThrows P trustAnchors options rpResolved.candidates ∧
        (EndsAt P trustAnchors options rpResolved.candidates preferredOpChain.trustAnchorId ∨
          NoneThrows P trustAnchors options opResolved.candidates ∧
            SharedWithOp P trustAnchors options rpResolved opResolved) := by
  constructor
  · rintro ⟨s, h⟩
    obtain ⟨rpChains, hrp⟩ := selectShared_rp h
    refine ⟨validRegistrationChains_isOk_iff.mp ⟨rpChains, hrp⟩, ?_⟩
    by_cases hpreferred : ∃ r ∈ rpChains, r.chain.trustAnchorId = preferredOpChain.trustAnchorId
    · exact .inl ((endsAt_iff hrp).mpr hpreferred)
    · obtain ⟨opChains, hop, -⟩ := (selectShared_other hrp hpreferred s).mp h
      have hshares := selectShared_shares h
      obtain ⟨c, hc, -, hv⟩ := hshares.rpStatements
      refine .inr ⟨validRegistrationChains_isOk_iff.mp ⟨opChains, hop⟩, s.trustAnchorId,
        ⟨c, hc, _, hv, hshares.rpAnchor⟩, ?_⟩
      rcases hshares.opChain with hsame | ⟨d, hd, hw⟩
      · refine absurd ((endsAt_iff hrp).mp ⟨c, hc, _, hv, ?_⟩) hpreferred
        rw [hshares.rpAnchor, ← hshares.opAnchor, hsame]
      · exact ⟨d, hd, _, hw, hshares.opAnchor⟩
  · rintro ⟨hthrows, hshared⟩
    obtain ⟨rpChains, hrp⟩ := validRegistrationChains_isOk_iff.mpr hthrows
    by_cases hpreferred : ∃ r ∈ rpChains, r.chain.trustAnchorId = preferredOpChain.trustAnchorId
    · obtain ⟨r, -, -, hselect⟩ := selectShared_preferred opResolved hrp hpreferred
      exact ⟨_, hselect⟩
    · rcases hshared with hends | ⟨hopThrows, anchor, hends, hopEnds⟩
      · exact absurd ((endsAt_iff hrp).mp hends) hpreferred
      obtain ⟨opChains, hop⟩ := validRegistrationChains_isOk_iff.mpr hopThrows
      obtain ⟨r, hr, rfl⟩ := (endsAt_iff hrp).mp hends
      obtain ⟨o, ho, hanchor⟩ := (endsAt_iff hop).mp hopEnds
      obtain ⟨r', -, o', -, -, hfound⟩ | ⟨hnone, -⟩ := firstSharedChains_cases opChains rpChains
      · exact ⟨_, (selectShared_other hrp hpreferred _).mpr ⟨opChains, hop, hfound⟩⟩
      · exact absurd hanchor (hnone r hr o ho)

/-- A shared anchor is found, unless some validation throws. -/
theorem selectSharedRegistrationTrustChains_iff :
    FindsSharedAnchor P trustAnchors options rpResolved opResolved preferredOpChain ↔
      (EndsAt P trustAnchors options rpResolved.candidates preferredOpChain.trustAnchorId →
        NoneThrows P trustAnchors options rpResolved.candidates) ∧
      (SharedWithOp P trustAnchors options rpResolved opResolved →
        NoneThrows P trustAnchors options rpResolved.candidates ∧
          (EndsAt P trustAnchors options rpResolved.candidates preferredOpChain.trustAnchorId ∨
            NoneThrows P trustAnchors options opResolved.candidates)) := by
  constructor
  · intro h
    have hsucceeds := selectShared_succeeds_iff.symm.trans h.succeeds
    refine ⟨fun hends => (hsucceeds.mpr (.inl hends)).1, fun hshared => ?_⟩
    obtain ⟨hthrows, hfound⟩ := hsucceeds.mpr (.inr hshared)
    exact ⟨hthrows, hfound.imp_right And.left⟩
  · rintro ⟨hpreferred, hother⟩
    refine ⟨selectShared_succeeds_iff.trans ⟨?_, ?_⟩, fun s => selectShared_shares⟩
    · rintro ⟨-, hends | ⟨-, hshared⟩⟩
      · exact .inl hends
      · exact .inr hshared
    · rintro (hends | hshared)
      · exact ⟨hpreferred hends, .inl hends⟩
      · obtain ⟨hthrows, hop⟩ := hother hshared
        exact ⟨hthrows, hop.imp_right fun hnone => ⟨hnone, hshared⟩⟩

end Select

/-! ## An example -/

/-- An OP under an anchor, and a relying party with two paths to it: directly, and by way of an
authority that states a key with a text for its operations. -/
def oddAuthority : List (String × SignedJwt) :=
  let statement (iss sub key signer : String) (rest : List (String × Json)) :=
    signedJwt JwtTyp.entityStatement signer (statementClaims iss sub key rest)
  [("rp", statement "https://rp.example" "https://rp.example" "rp-key" "rp-key"
      [("authority_hints", .arr [.str "https://ta.example", .str "https://odd.example"]),
        ("metadata", .obj [("openid_relying_party", .obj [("client_name", .str "RP")])])]),
    ("ta-about-rp", statement "https://ta.example" "https://rp.example" "rp-key" "ta-key" []),
    ("odd-about-rp", statement "https://odd.example" "https://rp.example" "rp-key" "odd-key"
      [("metadata", .obj [("oauth_client", .obj [("jwks", .obj [("keys", .arr [.obj
        [("kty", .str "EC"), ("key_ops", .str "verify")]])])])])]),
    ("ta-about-odd", statement "https://ta.example" "https://odd.example" "odd-key" "ta-key" []),
    ("op", statement "https://op.example" "https://op.example" "op-key" "op-key"
      [("authority_hints", .arr [.str "https://ta.example"])]),
    ("ta-about-op", statement "https://ta.example" "https://op.example" "op-key" "ta-key" []),
    ("ta", statement "https://ta.example" "https://ta.example" "ta-key" "ta-key"
      [("metadata", .obj [("federation_entity", .obj [
        ("federation_fetch_endpoint", .str "https://ta.example/fetch"),
        ("federation_list_endpoint", .str "https://ta.example/list")])])])]

def pathOf (entityId : String) (statements : List String) : Candidate where
  chain := { statements, entityId, trustAnchorId := "https://ta.example", expiresAt := some 2000 }
  clock := fun _ => 1500

def directRpPath : Candidate := pathOf "https://rp.example" ["rp", "ta-about-rp", "ta"]

def oddRpPath : Candidate :=
  pathOf "https://rp.example" ["rp", "odd-about-rp", "ta-about-odd", "ta"]

def opPath : Candidate := pathOf "https://op.example" ["op", "ta-about-op", "ta"]

def oddAnchors : TrustAnchorSet := Dict.ofEntries [("https://ta.example", [tableKey "ta-key"])]

/-- The anchor of a path that validates. -/
theorem exists_validates (c : Candidate) (anchor : String)
    (h : ((c.validate (tablePlatform oddAuthority) oddAnchors {}).toOption.bind
      Except.toOption).map (·.trustAnchorId) = some anchor) :
    ∃ v, c.Validates (tablePlatform oddAuthority) oddAnchors {} v ∧ v.trustAnchorId = anchor := by
  obtain ⟨v, hv, hanchor⟩ := Option.map_eq_some_iff.mp h
  obtain ⟨r, hr, hrv⟩ := Option.bind_eq_some_iff.mp hv
  obtain rfl := toOption_eq_some.mp hrv
  exact ⟨v, toOption_eq_some.mp hr, hanchor⟩

/-- The direct path of the RP validates and ends at the anchor of the OP, and the selection throws
all the same. -/
theorem oddRpPath_ends_selection : ∃ op,
    opPath.Validates (tablePlatform oddAuthority) oddAnchors {} op ∧
    (∃ v, directRpPath.Validates (tablePlatform oddAuthority) oddAnchors {} v ∧
      v.trustAnchorId = op.trustAnchorId) ∧
    selectSharedRegistrationTrustChains (tablePlatform oddAuthority) oddAnchors {}
      ⟨[directRpPath, oddRpPath], []⟩ ⟨[opPath], []⟩ op = .error .typeError ∧
    ¬ FindsSharedAnchor (tablePlatform oddAuthority) oddAnchors {}
      ⟨[directRpPath, oddRpPath], []⟩ ⟨[opPath], []⟩ op := by
  have hthrows : oddRpPath.validate (tablePlatform oddAuthority) oddAnchors {} =
      .error .typeError := by
    have hnone : (oddRpPath.validate (tablePlatform oddAuthority) oddAnchors {}).toOption.isNone =
        true := by decide +kernel
    cases h : oddRpPath.validate (tablePlatform oddAuthority) oddAnchors {} with
    | error e =>
      cases e
      rfl
    | ok r => simp [h, Except.toOption] at hnone
  obtain ⟨op, hop, hopAnchor⟩ := exists_validates opPath "https://ta.example" (by decide +kernel)
  obtain ⟨v, hv, hanchor⟩ :=
    exists_validates directRpPath "https://ta.example" (by decide +kernel)
  have hselect : selectSharedRegistrationTrustChains (tablePlatform oddAuthority) oddAnchors {}
      ⟨[directRpPath, oddRpPath], []⟩ ⟨[opPath], []⟩ op = .error .typeError := by
    rw [Candidate.Validates] at hv
    simp [selectSharedRegistrationTrustChains, resolveValidRegistrationChains,
      validRegistrationChains, hv, hthrows, bind, Except.bind]
  refine ⟨op, hop, ⟨v, hv, hanchor.trans hopAnchor.symm⟩, hselect, fun h => ?_⟩
  obtain ⟨s, hs⟩ := h.succeeds.mpr
    (.inl ⟨directRpPath, by simp, v, hv, hanchor.trans hopAnchor.symm⟩)
  rw [hselect] at hs
  cases hs

end OidFed
