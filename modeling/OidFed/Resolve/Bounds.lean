import OidFed.Resolve.Schedules

/-!
# The bounds of a discovery, and the chains that it returns

* `Climb.length_eq`, `Climb.nodup`: a way up has one statement for each entity, and repeats none.
* `AlongPath`, `OfLeafAlone`: the two kinds of chains. `chain_of_returned`: every chain of a result
  is of one of them.
* `discovery_bounded`: fetches, depth and the length of a run are bounded by the limits, and a branch
  goes on once its own fetches settle.
-/

namespace OidFed

open Js ForkJoin

namespace Resolution

section Definitions

variable (host : ResolutionHost) (anchors : TrustAnchorSet) (options : ResolutionOptions)
  (leaf : String) (answers : FetchCall → FetchOutcome → Prop)

/-- A chain of the leaf's configuration, a Subordinate Statement for each hop of a path, and the
configuration of the Trust Anchor that the path ends at. -/
structure AlongPath (chain : TrustChain) (entities : List String) : Prop where
  entityId : chain.entityId = leaf
  statements : ∃ statements configuration, Climb host leaf answers entities statements ∧
    Answered host answers (.entityConfiguration (.str chain.trustAnchorId))
      (.returned (.ok configuration)) ∧ chain.statements = statements ++ [configuration]
  length : chain.statements.length = entities.length + 1
  hops : entities.length ≤ options.maxChainDepth + 1
  nodup : entities.Nodup
  last : entities.getLast? = some chain.trustAnchorId
  anchor : (anchors.get? chain.trustAnchorId).isSome = true

/-- The configuration of a leaf that is itself a Trust Anchor and has no hints. -/
structure OfLeafAlone (chain : TrustChain) : Prop where
  entityId : chain.entityId = leaf
  trustAnchorId : chain.trustAnchorId = leaf
  anchor : (anchors.get? leaf).isSome = true
  statements : ∃ configuration decoded, chain.statements = [configuration] ∧
    Answered host answers (.entityConfiguration (.str leaf)) (.returned (.ok configuration)) ∧
    decodeEntityStatement host.toPlatform configuration = .ok decoded ∧
    lacksHints (authorityHints decoded.payload) = true

end Definitions

variable {host : ResolutionHost} {anchors : TrustAnchorSet} {options : ResolutionOptions}
  {leaf : String} {answers : FetchCall → FetchOutcome → Prop} {S S' : Resolution} {p : NodePath}
  {b : Branch}

/-! ## Ways up -/

theorem Climb.length_eq {entities statements : List String}
    (h : Climb host leaf answers entities statements) : statements.length = entities.length := by
  induction h with
  | leaf _ => rfl
  | hop _ _ _ _ _ _ _ ih => rw [List.length_append, List.length_append, ih, List.length_singleton,
      List.length_singleton]

theorem Climb.nodup {entities statements : List String}
    (h : Climb host leaf answers entities statements) : entities.Nodup := by
  induction h with
  | leaf _ => exact List.nodup_singleton _
  | hop _ _ hfresh _ _ _ _ ih => exact List.nodup_append.mpr ⟨ih, List.nodup_singleton _,
      fun a ha c hc heq => hfresh (List.mem_singleton.mp hc ▸ heq ▸ ha)⟩

/-! ## Chains -/

/-- A completed chain is that along the way of its branch. -/
theorem alongPath_of_completed {chain : TrustChain}
    (hlevel : LevelHolds host options leaf answers b.level)
    (h : Fate host anchors options leaf answers S b (.completed chain)) :
    AlongPath host anchors options leaf answers chain (b.level.visited ++ [b.issuer]) := by
  cases h with
  | @completed configuration statement decoded _ hattested hanchor hstatements hentity htrust _ =>
    have hclimb := hattested.climb hlevel
    have hfetched := hattested.fetched
    rw [hint_eq hattested.fetched, ← htrust] at hfetched
    have hsplit : chain.statements = (b.level.chainSoFar ++ [statement]) ++ [configuration] := by
      rw [hstatements, List.append_assoc]
      rfl
    refine ⟨hentity, ⟨_, configuration, hclimb, hfetched, hsplit⟩, ?_, ?_, hclimb.nodup, ?_, ?_⟩
    · rw [hsplit, List.length_append, hclimb.length_eq, List.length_singleton]
    · have hdepth := hlevel.depth
      have hbounded := hlevel.bounded
      rw [List.length_append, List.length_singleton]
      omega
    · rw [htrust]
      simp
    · rw [htrust]
      exact hanchor

theorem chain_of_returned (h : (resolution host anchors options leaf answers).Reach S)
    {result : TrustChainResult} (hresult : S.phase = .returned result) {chain : TrustChain}
    (hchain : chain ∈ result.chains) :
    (∃ entities, AlongPath host anchors options leaf answers chain entities) ∨
      OfLeafAlone host anchors leaf answers chain := by
  cases returned_of_reach h hresult with
  | overBudget _ hnone _ =>
    rw [hnone] at hchain
    exact absurd hchain List.not_mem_nil
  | leaf _ houtcome hends =>
    cases hends with
    | failed e incomplete => exact absurd hchain List.not_mem_nil
    | undecodable _ => exact absurd hchain List.not_mem_nil
    | mismatched e _ _ => exact absurd hchain List.not_mem_nil
    | noHints e _ _ => exact absurd hchain List.not_mem_nil
    | @anchor configuration decoded expiresAt hdecode hlacks hanchor =>
      obtain rfl := List.mem_singleton.mp hchain
      exact .inr ⟨rfl, rfl, hanchor, configuration, decoded, rfl, houtcome, hdecode, hlacks⟩
  | @walked T hreach hbuilt _ _ _ heq =>
    subst heq
    have hkept := kept_of_reach hreach
    obtain ⟨p, hp⟩ := hkept.chains chain hchain
    obtain ⟨b, hget, hphase⟩ := endOf_eq_some.mp hp
    obtain ⟨hlevel, hfate⟩ := hkept.branch hget
    rw [hphase] at hfate
    exact .inl ⟨_, alongPath_of_completed hlevel hfate⟩

/-! ## The bounds -/

/-- However the fetches are answered, and in whatever order the branches take their steps. -/
theorem discovery_bounded (h : (resolution host anchors options leaf answers).Reach S) :
    S.started.length ≤ options.maxTotalFetches ∧
    (∀ e ∈ S.started, e.1 ≤ options.maxChainDepth) ∧
    (∀ n S', (resolution host anchors options leaf answers).Steps S n S' → n ≤ maxSteps options) ∧
    (¬ Finished S → ¬ InFlight S → ∃ S', Advance host anchors options leaf answers S S') ∧
    (∀ p b, S.branches.get? p = some b → ¬ Awaits S p → (∃ how, b.phase = .ended how) ∨
      ∃ q S', p <:+ q ∧ Advance host anchors options leaf answers S S' ∧
        S'.phaseAt q ≠ S.phaseAt q) ∧
    (Finished S → ∀ p b, S.branches.get? p = some b → ∃ how, b.phase = .ended how) ∧
    ∀ result, S.phase = .returned result → ∀ chain ∈ result.chains,
      (∃ entities, AlongPath host anchors options leaf answers chain entities) ∨
        OfLeafAlone host anchors leaf answers chain := by
  have hspent := spent_of_reach h
  have hpaid := hspent.paid
  refine ⟨by omega, hspent.depth, ?_, ?_, ?_, ?_, ?_⟩
  · exact fun n S' hsteps => run_length_le h hsteps
  · exact progress h
  · exact fun p b hget hawaits => own_progress h hget hawaits
  · exact fun hfinished p b hget => hfinished.all_ended h hget
  · exact fun result hresult chain hchain => chain_of_returned h hresult hchain

/-- A leaf below an anchor, to the end. -/
def hintedRun : Resolution :=
  discoveryRun (servedHost (leafClaims [("authority_hints", .arr [.str "https://ta.example"])]))
    servedAnchors {} "https://leaf.example" served hintedMoves

theorem hintedRun_bounded : hintedRun.phase = .returned { errors := [], chains :=
      [{ statements := ["leaf", "statement", "anchor"], entityId := "https://leaf.example"
         trustAnchorId := "https://ta.example", expiresAt := some 2000 }] } ∧
    hintedRun.started.length ≤ 50 := by
  have hreach : (resolution
      (servedHost (leafClaims [("authority_hints", .arr [.str "https://ta.example"])])) servedAnchors {}
      "https://leaf.example" (Fixed served)).Reach hintedRun := reach_discoveryRun _
  exact ⟨by decide +kernel, (discovery_bounded hreach).1⟩

/-- A leaf without hints that is itself an anchor. -/
def anchorRun : Resolution :=
  discoveryRun (servedHost (leafClaims [])) (Dict.ofEntries [("https://leaf.example", [])]) {}
    "https://leaf.example" served [.root, .root, .root]

/-- Its chain is its configuration alone. -/
theorem anchorRun_alone :
    (resolution (servedHost (leafClaims [])) (Dict.ofEntries [("https://leaf.example", [])]) {}
      "https://leaf.example" (Fixed served)).Reach anchorRun ∧
    ∃ result chain, anchorRun.phase = .returned result ∧ chain ∈ result.chains ∧
      ¬ ∃ entities, AlongPath (servedHost (leafClaims []))
        (Dict.ofEntries [("https://leaf.example", [])]) {} "https://leaf.example" (Fixed served)
        chain entities := by
  have hphase : anchorRun.phase = .returned { errors := [], chains :=
      [{ statements := ["leaf"], entityId := "https://leaf.example"
         trustAnchorId := "https://leaf.example", expiresAt := some 2000 }] } := by decide +kernel
  refine ⟨reach_discoveryRun _, _, _, hphase, List.mem_singleton.mpr rfl, ?_⟩
  rintro ⟨entities, hpath⟩
  have hempty : entities = [] := by simpa using hpath.length
  have hlast := hpath.last
  rw [hempty] at hlast
  simp at hlast

end Resolution

end OidFed
