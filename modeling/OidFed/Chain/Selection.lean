import OidFed.Chain.Validate
import OidFed.Resolve.State

/-!
# Selection of a chain (`trust-chain/discovery.ts`, `trust-chain/refresh.ts`)

`resolveTrustChains` returns candidates in the order in which their branches have settled. Its
callers validate them and pick one.

* `Candidate`: a chain, and what its validation reads.
* `discoverEntity` validates every candidate and takes the `shortestChain`; `refreshTrustChain`
  takes the first candidate that validates.
* `discoverEntity_best`: discovery succeeds with a shortest chain, whatever the order.
* `refreshTrustChain_head`: a refresh returns the chain of the first candidate, if it validates.
-/

namespace OidFed

open Js

/-- How the promise of a validation settles. -/
abbrev ChainOutcome := Except JsError (Except (List ValidationError) ValidatedTrustChain)

/-- A chain with the readings of the clock in its validation, and how a validation settles that
goes on outside. -/
structure Candidate where
  chain : TrustChain
  clock : Clock
  resumed : ChainOutcome := .error .typeError

/-- What `resolveTrustChains` returns. -/
structure ResolvedChains where
  candidates : List Candidate
  errors : List FederationError := []

structure DiscoveryResult where
  entityId : String
  resolvedMetadata : FederationMetadata
  trustChain : ValidatedTrustChain
  trustMarks : List ValidatedTrustMark

def ValidationResult.settled (resumed : ChainOutcome) : ValidationResult → ChainOutcome
  | invalid errors => .ok (.error errors)
  | valid chain _ => .ok (.ok chain)
  | outside _ => resumed

/-- Select the chain with the fewest statements, the first one of these. -/
def shortestChain (chains : List ValidatedTrustChain) : Option ValidatedTrustChain :=
  (chains.mergeSort fun a b => decide (a.statements.length ≤ b.statements.length)).head?

def isChainExpired (chain : ValidatedTrustChain) (now : Rat) : Bool := decide (chain.expiresAt ≤ now)

section Selection

variable (P : Platform) (trustAnchors : TrustAnchorSet) (options : TrustChainValidationOptions)

def Candidate.validate (c : Candidate) : ChainOutcome := do
  let result ← validateTrustChain P c.chain.statements trustAnchors options c.clock
  result.settled c.resumed

/-- The loop of `discoverEntity`: the valid chains, and a message for each of the others. -/
def validateCandidates : List Candidate → Except JsError (List ValidatedTrustChain × List String)
  | [] => .ok ([], [])
  | c :: rest => do
    let result ← c.validate P trustAnchors options
    let (chains, errors) ← validateCandidates rest
    match result with
    | .ok chain => return (chain :: chains, errors)
    | .error es => return (chains, "; ".intercalate (es.map (·.message)) :: errors)

/-- Resolves and validates trust chains for a target entity, returning the shortest valid chain. -/
def discoverEntity (entityId : String) (resolved : ResolvedChains) :
    Except JsError (Except FederationError DiscoveryResult) :=
  if resolved.candidates.isEmpty then
    let details := if resolved.errors.isEmpty then ""
      else ": " ++ "; ".intercalate (resolved.errors.map (·.description))
    .ok (.error (internalError .TrustChainInvalid
      ("No trust chains resolved for entity" ++ details)))
  else do
    let (validChains, validationErrors) ← validateCandidates P trustAnchors options
      resolved.candidates
    match shortestChain validChains with
    | none =>
      let details := if validationErrors.isEmpty then ""
        else ": " ++ " | ".intercalate validationErrors
      return .error (internalError .TrustChainInvalid
        ("No valid trust chains for entity" ++ details))
    | some bestChain =>
      return .ok { entityId, resolvedMetadata := bestChain.resolvedMetadata
                   trustChain := bestChain, trustMarks := bestChain.trustMarks }

/-- The loop of `refreshTrustChain`. -/
def firstValidChain : List Candidate → Except JsError (Option ValidatedTrustChain)
  | [] => .ok none
  | c :: rest => do
    match ← c.validate P trustAnchors options with
    | .ok chain => return some chain
    | .error _ => firstValidChain rest

/-- Refreshes a trust chain if it has expired (or if `forceRefresh` is set). -/
def refreshTrustChain (chain : ValidatedTrustChain) (forceRefresh : Bool) (now : Rat)
    (resolved : ResolvedChains) : Except JsError (Except FederationError ValidatedTrustChain) :=
  if !forceRefresh && !isChainExpired chain now then .ok (.ok chain)
  else if resolved.candidates.isEmpty then
    let errMsgs := "; ".intercalate (resolved.errors.map (·.description))
    .ok (.error (internalError .TrustChainInvalid
      (s!"Failed to refresh trust chain for '{chain.entityId}': " ++
        if errMsgs = "" then "no chains resolved" else errMsgs)))
  else do
    match ← firstValidChain P trustAnchors options resolved.candidates with
    | some refreshed => return .ok refreshed
    | none => return .error (internalError .TrustChainInvalid
        (s!"Failed to refresh trust chain for '{chain.entityId}': " ++
          "all resolved chains failed validation"))

/-! ## What is selected -/

def Candidate.Validates (c : Candidate) (v : ValidatedTrustChain) : Prop :=
  c.validate P trustAnchors options = .ok (.ok v)

/-- The validation throws. -/
def Candidate.Throws (c : Candidate) : Prop := ∃ e, c.validate P trustAnchors options = .error e

/-- A chain of a candidate that validates, with no more statements than any other. -/
structure BestChain (candidates : List Candidate) (v : ValidatedTrustChain) : Prop where
  candidate : ∃ c ∈ candidates, c.Validates P trustAnchors options v
  shortest : ∀ c ∈ candidates, ∀ w, c.Validates P trustAnchors options w →
    v.statements.length ≤ w.statements.length

end Selection

/-! ### The shortest chain -/

theorem shortestChain_eq_none {chains : List ValidatedTrustChain} :
    shortestChain chains = none ↔ chains = [] := by
  rw [shortestChain, List.head?_eq_none_iff]
  constructor
  · intro h
    have hperm := List.mergeSort_perm chains
      fun a b => decide (a.statements.length ≤ b.statements.length)
    rw [h] at hperm
    exact hperm.nil_eq.symm
  · rintro rfl
    simp

/-- The selected chain is one of the list, and none has fewer statements. -/
theorem shortestChain_le {chains : List ValidatedTrustChain} {v : ValidatedTrustChain}
    (h : shortestChain chains = some v) :
    v ∈ chains ∧ ∀ w ∈ chains, v.statements.length ≤ w.statements.length := by
  have hsorted : (chains.mergeSort fun a b =>
      decide (a.statements.length ≤ b.statements.length)).Pairwise fun a b =>
        decide (a.statements.length ≤ b.statements.length) = true := by
    apply List.pairwise_mergeSort
    · intro a b c hab hbc
      simp only [decide_eq_true_eq] at *
      omega
    · intro a b
      simp only [Bool.or_eq_true, decide_eq_true_eq]
      omega
  have hperm := List.mergeSort_perm chains
    fun a b => decide (a.statements.length ≤ b.statements.length)
  rw [shortestChain] at h
  obtain ⟨rest, hrest⟩ := List.head?_eq_some_iff.mp h
  rw [hrest] at hsorted hperm
  refine ⟨hperm.subset (List.mem_cons_self ..), fun w hw => ?_⟩
  rcases List.mem_cons.mp (hperm.symm.subset hw) with rfl | hmem
  · exact le_rfl
  · simpa using List.rel_of_pairwise_cons hsorted hmem

section Selection

variable {P : Platform} {trustAnchors : TrustAnchorSet} {options : TrustChainValidationOptions}
  {candidates : List Candidate}

/-! ### Discovery -/

/-- The valid chains of a loop that does not throw are those of the candidates that validate. -/
theorem mem_validateCandidates {chains : List ValidatedTrustChain} {errors : List String}
    (h : validateCandidates P trustAnchors options candidates = .ok (chains, errors))
    (v : ValidatedTrustChain) :
    v ∈ chains ↔ ∃ c ∈ candidates, c.Validates P trustAnchors options v := by
  induction candidates generalizing chains errors with
  | nil =>
    obtain ⟨rfl, rfl⟩ := Prod.mk.inj (Except.ok.inj h)
    simp
  | cons c rest ih =>
    obtain ⟨result, hresult, h⟩ := bind_eq_ok.mp h
    obtain ⟨⟨chains', errors'⟩, hrest, h⟩ := bind_eq_ok.mp h
    have hih := ih hrest
    cases result with
    | ok chain =>
      obtain ⟨rfl, rfl⟩ := Prod.mk.inj (Except.ok.inj h)
      simp [Candidate.Validates, hresult, hih, eq_comm]
    | error es =>
      obtain ⟨rfl, rfl⟩ := Prod.mk.inj (Except.ok.inj h)
      simp [Candidate.Validates, hresult, hih]

theorem validateCandidates_throws {c : Candidate} (hc : c ∈ candidates)
    (ht : c.Throws P trustAnchors options) :
    ∃ e, validateCandidates P trustAnchors options candidates = .error e := by
  induction candidates with
  | nil => cases hc
  | cons d rest ih =>
    cases hd : d.validate P trustAnchors options with
    | error e => exact ⟨e, by rw [validateCandidates, hd]; rfl⟩
    | ok result =>
      rcases List.mem_cons.mp hc with rfl | hc
      · obtain ⟨e, he⟩ := ht
        rw [he] at hd
        cases hd
      · obtain ⟨e, he⟩ := ih hc
        exact ⟨e, by rw [validateCandidates, hd, he]; rfl⟩

theorem validateCandidates_ok (h : ∀ c ∈ candidates, ¬ c.Throws P trustAnchors options) :
    ∃ chains errors, validateCandidates P trustAnchors options candidates =
      .ok (chains, errors) := by
  induction candidates with
  | nil => exact ⟨[], [], rfl⟩
  | cons c rest ih =>
    obtain ⟨chains, errors, hrest⟩ := ih fun d hd => h d (List.mem_cons_of_mem _ hd)
    cases hc : c.validate P trustAnchors options with
    | error e => exact absurd ⟨e, hc⟩ (h c (List.mem_cons_self ..))
    | ok result =>
      cases result with
      | ok chain => exact ⟨_, _, by rw [validateCandidates, hc, hrest]; rfl⟩
      | error es => exact ⟨_, _, by rw [validateCandidates, hc, hrest]; rfl⟩

/-- Discovery succeeds, with a best chain, exactly if no validation throws and some succeeds. -/
theorem discoverEntity_best (entityId : String) (resolved : ResolvedChains) :
    (∃ d, discoverEntity P trustAnchors options entityId resolved = .ok (.ok d) ∧
        BestChain P trustAnchors options resolved.candidates d.trustChain) ↔
      (∀ c ∈ resolved.candidates, ¬ c.Throws P trustAnchors options) ∧
        ∃ c ∈ resolved.candidates, ∃ v, c.Validates P trustAnchors options v := by
  constructor
  · rintro ⟨d, hd, hbest⟩
    obtain ⟨c, hc, hv⟩ := hbest.candidate
    refine ⟨fun c' hc' ht => ?_, c, hc, _, hv⟩
    obtain ⟨e, he⟩ := validateCandidates_throws hc' ht
    rw [discoverEntity, if_neg (by simpa using List.ne_nil_of_mem hc), he] at hd
    cases hd
  · rintro ⟨hthrows, c, hc, v, hv⟩
    obtain ⟨chains, errors, hvalid⟩ := validateCandidates_ok hthrows
    have hmem := mem_validateCandidates hvalid
    have hne : shortestChain chains ≠ none := fun hnone => by
      have := (hmem v).mpr ⟨c, hc, hv⟩
      rw [shortestChain_eq_none.mp hnone] at this
      cases this
    obtain ⟨best, hbest⟩ := Option.ne_none_iff_exists'.mp hne
    obtain ⟨hin, hshort⟩ := shortestChain_le hbest
    refine ⟨_, by
      rw [discoverEntity, if_neg (by simpa using List.ne_nil_of_mem hc), hvalid]
      simp only [bind, Except.bind, hbest]
      rfl, (hmem best).mp hin, fun c' hc' w hw => hshort w ((hmem w).mpr ⟨c', hc', hw⟩)⟩

/-! ### Refresh -/

/-- A refresh returns the chain of the first candidate, if that one validates. -/
theorem refreshTrustChain_head {resolved : ResolvedChains} {c : Candidate} {rest : List Candidate}
    (hcandidates : resolved.candidates = c :: rest) {v : ValidatedTrustChain}
    (hv : c.Validates P trustAnchors options v) {chain : ValidatedTrustChain} {forceRefresh : Bool}
    {now : Rat} (hold : (forceRefresh || isChainExpired chain now) = true) :
    refreshTrustChain P trustAnchors options chain forceRefresh now resolved = .ok (.ok v) := by
  have hrefresh : (!forceRefresh && !isChainExpired chain now) = false := by
    rw [← Bool.not_or, hold]
    rfl
  have hfirst : firstValidChain P trustAnchors options (c :: rest) = .ok (some v) := by
    rw [firstValidChain, show c.validate P trustAnchors options = .ok (.ok v) from hv]
    rfl
  rw [refreshTrustChain, hrefresh, hcandidates, hfirst]
  rfl

end Selection

end OidFed
