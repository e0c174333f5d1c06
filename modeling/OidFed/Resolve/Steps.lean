import OidFed.Resolve.State

/-!
# What a step of the discovery does

* `resolution`: the discovery as a system; the branches take their steps in any order (`Advance`),
  and the signal may be aborted between any two.
* `Climb`: the entities on the way from the leaf to a level, and the statements gathered there.
* `Got`, `Fate`: what a branch knows while it waits, and why it has ended.
* `BranchStep`, `RootStep`: all that a step can do, with what it says of the branch.
  `branchStep_of_step`: every step is one of them.
-/

namespace OidFed

open Js ForkJoin

namespace Resolution

section System

variable (host : ResolutionHost) (anchors : TrustAnchorSet) (options : ResolutionOptions)
  (leaf : String) (answers : FetchCall → FetchOutcome → Prop)

/-- The steps of `resolveTrustChains` for a leaf, where `answers` says how fetches may settle. They
are finer than the parts of the code between two places where it waits. -/
inductive Advance : Resolution → Resolution → Prop
  | begin {S : Resolution} : S.phase = .start → Advance S (S.begin leaf)
  | settleLeaf {S : Resolution} {answer : FetchOutcome} : S.phase = .fetching →
      answers (.entityConfiguration (.str leaf)) answer → Advance S { S with phase := .answered answer }
  | leafFetched {S : Resolution} {outcome : FetchOutcome} : S.phase = .answered outcome →
      Advance S (S.leafFetched host anchors options leaf outcome)
  | joinLeaf {S : Resolution} {level : Level} : S.phase = .building → S.root = some level →
      S.AllSettled [] level → Advance S (S.joinLeaf host level)
  | finish {S : Resolution} : S.phase = .built → Advance S S.finish
  | enterHint {S : Resolution} {p : NodePath} {b : Branch} : S.branches.get? p = some b →
      b.phase = .entering → Advance S (S.enterHint options p b)
  | resume {S : Resolution} {p : NodePath} {b : Branch} {work : Work} :
      S.branches.get? p = some b → b.phase = .waiting work → p ∈ S.limiter.granted →
        Advance S (S.resume p b work)
  | reject {S : Resolution} {p : NodePath} {b : Branch} {work : Work} : S.branches.get? p = some b →
      b.phase = .waiting work → S.aborted = true → ¬ S.limiter.Pending p →
        Advance S (S.setPhase p b (.ended (.rejected .aborted)))
  | settleFetch {S : Resolution} {p : NodePath} {b : Branch} {work : Work} {answer : FetchOutcome} :
      S.branches.get? p = some b → b.phase = .fetching work → answers (b.call work) answer →
        Advance S (S.settleFetch host p b work answer)
  | continueBranch {S : Resolution} {p : NodePath} {b : Branch} {work : Work} {outcome : FetchOutcome} :
      S.branches.get? p = some b → b.phase = .answered work outcome →
        Advance S (S.continueBranch host anchors options leaf p b work outcome)
  | joinBranches {S : Resolution} {p : NodePath} {b : Branch} {level : Level} :
      S.branches.get? p = some b → b.phase = .recursing level → S.AllSettled p level →
        Advance S (S.joinBranches host p b level)

/-- A step, or an abort of the signal. -/
inductive Step (S : Resolution) : Resolution → Prop
  | advance {S' : Resolution} : Advance host anchors options leaf answers S S' → Step S S'
  | abort : S.aborted = false → Step S { S with aborted := true, limiter := S.limiter.abort }

/-- The discovery, from its call. The signal may be aborted already. -/
def resolution : System where
  St := Resolution
  init S := ∃ aborted, S = { remaining := options.maxTotalFetches, aborted := aborted }
  step := Step host anchors options leaf answers

/-! ## What is known of branches -/

/-- A fetch may settle so. -/
def Answered (call : FetchCall) (outcome : FetchOutcome) : Prop :=
  ∃ answer, answers call answer ∧ outcome = call.outcome host answer

/-- The entities on a way up from the leaf, and the statements gathered on it. -/
inductive Climb : List String → List String → Prop
  | leaf {configuration : String} :
      Answered host answers (.entityConfiguration (.str leaf)) (.returned (.ok configuration)) →
        Climb [leaf] [configuration]
  | hop {entities statements : List String} {entity issuer configuration statement : String}
      {decoded : ParsedEntityStatement} {endpoint : Json} : Climb entities statements →
      entities.getLast? = some entity → issuer ∉ entities →
      Answered host answers (.entityConfiguration (.str issuer)) (.returned (.ok configuration)) →
      decodeEntityStatement host.toPlatform configuration = .ok decoded →
      fetchEndpoint decoded.payload = some endpoint →
      Answered host answers (.subordinateStatement endpoint entity issuer)
        (.returned (.ok statement)) →
        Climb (entities ++ [issuer]) (statements ++ [statement])

structure LevelHolds (level : Level) : Prop where
  climb : Climb host leaf answers level.visited level.chainSoFar
  entityId : level.visited.getLast? = some level.entityId
  depth : level.depth = level.visited.length
  bounded : level.depth ≤ options.maxChainDepth
  hints : level.hints.length ≤ options.maxAuthorityHints

/-- What a branch has got before it waits. -/
structure Got (b : Branch) (work : Work) : Prop where
  fresh : ∀ s, b.hint = .str s → s ∉ b.level.visited
  work : ∀ configuration decoded endpoint, work = .statement configuration decoded endpoint →
    Answered host answers (.entityConfiguration b.hint) (.returned (.ok configuration)) ∧
    decodeEntityStatement host.toPlatform configuration = .ok decoded ∧
    fetchEndpoint decoded.payload = some endpoint

/-- A branch has got its statement. -/
structure Attested (b : Branch) (configuration statement : String)
    (decoded : ParsedEntityStatement) : Prop where
  fresh : ∀ s, b.hint = .str s → s ∉ b.level.visited
  fetched : Answered host answers (.entityConfiguration b.hint) (.returned (.ok configuration))
  decodes : decodeEntityStatement host.toPlatform configuration = .ok decoded
  attested : ∃ endpoint, fetchEndpoint decoded.payload = some endpoint ∧ Answered host answers
    (.subordinateStatement endpoint b.level.entityId b.issuer) (.returned (.ok statement))

/-- A level that a branch has gone on to. -/
structure Recurses (S : Resolution) (b : Branch) (level : Level) : Prop where
  holds : LevelHolds host options leaf answers level
  next : ∃ configuration statement decoded items,
    Attested host answers b configuration statement decoded ∧ (anchors.get? b.issuer).isSome = false ∧
    authorityHints decoded.payload = some (.arr items) ∧
    (S.incomplete = false → items.length ≤ options.maxAuthorityHints) ∧
    level = { entityId := b.issuer, chainSoFar := b.level.chainSoFar ++ [statement],
              visited := b.level.visited ++ [b.issuer], depth := b.level.depth + 1,
              hints := keptHints host options b.issuer items }

/-- Why a branch has ended. -/
inductive Fate (S : Resolution) (b : Branch) : BranchEnd → Prop
  | looped {s : String} : b.hint = .str s → s ∈ b.level.visited → Fate S b .looped
  | overBudget : S.incomplete = true → Fate S b .overBudget
  | aborted : S.aborted = true → Fate S b (.rejected .aborted)
  | rejected {work : Work} {reason : Reason} : Got host answers b work →
      Answered host answers (b.call work) (.rejected reason) → Fate S b (.rejected reason)
  | failed {work : Work} {e : FederationError} : Got host answers b work →
      Answered host answers (b.call work) (.returned (.error e)) → Fate S b (.failed e)
  | undecodable {configuration : String} {e : FederationError} :
      Answered host answers (.entityConfiguration b.hint) (.returned (.ok configuration)) →
      decodeEntityStatement host.toPlatform configuration = .error e → Fate S b (.failed e)
  | noEndpoint {configuration : String} {decoded : ParsedEntityStatement} :
      Answered host answers (.entityConfiguration b.hint) (.returned (.ok configuration)) →
      decodeEntityStatement host.toPlatform configuration = .ok decoded →
      fetchEndpoint decoded.payload = none → Fate S b .noEndpoint
  | dropped {configuration statement : String} {decoded : ParsedEntityStatement}
      {e : FederationError} : Attested host answers b configuration statement decoded →
      (anchors.get? b.issuer).isSome = true →
      (b.level.chainSoFar ++ [statement, configuration]).mapM
        (decodeEntityStatement host.toPlatform) = .error e → Fate S b .dropped
  | unexpiring {configuration statement : String} {decoded : ParsedEntityStatement}
      {parsed : List ParsedEntityStatement} {reason : Reason} :
      Attested host answers b configuration statement decoded →
      (anchors.get? b.issuer).isSome = true →
      (b.level.chainSoFar ++ [statement, configuration]).mapM
        (decodeEntityStatement host.toPlatform) = .ok parsed →
      unverifiedExpiration host parsed = .error reason → Fate S b (.rejected reason)
  | completed {configuration statement : String} {decoded : ParsedEntityStatement}
      {chain : TrustChain} : Attested host answers b configuration statement decoded →
      (anchors.get? b.issuer).isSome = true →
      chain.statements = b.level.chainSoFar ++ [statement, configuration] →
      chain.entityId = leaf → chain.trustAnchorId = b.issuer → chain ∈ S.chains →
        Fate S b (.completed chain)
  | noHints {configuration statement : String} {decoded : ParsedEntityStatement} :
      Attested host answers b configuration statement decoded →
      (anchors.get? b.issuer).isSome = false →
      lacksHints (authorityHints decoded.payload) = true → Fate S b .noHints
  | noList {configuration statement : String} {decoded : ParsedEntityStatement} {hints : Json} :
      Attested host answers b configuration statement decoded →
      (anchors.get? b.issuer).isSome = false → authorityHints decoded.payload = some hints →
      hints.isArray = false → Fate S b (.rejected .typeError)
  | pruned : S.incomplete = true → Fate S b (.recursed none)
  | recursed {level : Level} : Recurses host anchors options leaf answers S b level →
      Fate S b (.recursed (some level))

/-- What is known of a branch by where it is. -/
def PhaseHolds (S : Resolution) (b : Branch) : BranchPhase → Prop
  | .entering => True
  | .waiting work => Got host answers b work
  | .fetching work => Got host answers b work
  | .answered work outcome => Got host answers b work ∧ Answered host answers (b.call work) outcome
  | .recursing level => Recurses host anchors options leaf answers S b level
  | .ended how => Fate host anchors options leaf answers S b how

/-- The ends that are reported at once. -/
def Reported : BranchEnd → Prop
  | .looped | .overBudget | .failed _ | .noEndpoint | .noHints => True
  | _ => False

/-- The level whose branches a branch has forked. -/
def forked : BranchPhase → Option Level
  | .recursing level => some level
  | .ended (.recursed level) => level
  | _ => none

/-- A branch runs its own code: it enters, or goes on with the outcome of a fetch. -/
def Running (b : Branch) : Prop :=
  b.phase = .entering ∨ ∃ work outcome, b.phase = .answered work outcome

/-- A branch has come to a Trust Anchor, and a statement of its chain cannot be decoded. -/
def Drops (b : Branch) : Prop :=
  ∃ configuration decoded endpoint statement e,
    b.phase = .answered (.statement configuration decoded endpoint) (.returned (.ok statement)) ∧
    (anchors.get? b.issuer).isSome = true ∧
    (b.level.chainSoFar ++ [statement, configuration]).mapM
      (decodeEntityStatement host.toPlatform) = .error e

/-- All that a step of a branch can do, and what it says of the branch. -/
inductive BranchStep (S : Resolution) (p : NodePath) (b : Branch) : Resolution → Prop
  | ends {how : BranchEnd} (es : List FederationError) (cs : List TrustChain) {incomplete : Bool}
      {remaining : Nat} {S' : Resolution} : Running b →
      S' = { S with
        remaining := remaining
        chains := S.chains ++ cs
        errors := S.errors ++ es.map (p, ·)
        incomplete := incomplete
        branches := S.branches.set p { b with phase := .ended how } } →
      (S.incomplete = true → incomplete = true) → remaining ≤ S.remaining →
      forked (.ended how) = none → (Reported how → es ≠ []) → (∀ chain ∈ cs, how = .completed chain) →
      (how = .dropped → Drops host anchors b) →
      Fate host anchors options leaf answers S' b how → BranchStep S p b S'
  | waits {work : Work} : Running b → S.aborted = false → S.remaining ≠ 0 →
      Got host answers b work → BranchStep S p b { S with
        remaining := S.remaining - 1
        limiter := S.limiter.acquire options.maxConcurrentFetches p
        branches := S.branches.set p { b with phase := .waiting work } }
  | resumes {work : Work} : b.phase = .waiting work → p ∈ S.limiter.granted →
      S.aborted = false → BranchStep S p b { S with
        limiter := S.limiter.resume p
        started := S.started ++ [(b.level.depth, b.call work)]
        branches := S.branches.set p { b with phase := .fetching work } }
  | refused {work : Work} : b.phase = .waiting work → p ∈ S.limiter.granted → S.aborted = true →
      BranchStep S p b { S with
        limiter := S.limiter.refuse p
        branches := S.branches.set p { b with phase := .ended (.rejected .aborted) } }
  | rejects {work : Work} : b.phase = .waiting work → ¬ S.limiter.Pending p → S.aborted = true →
      BranchStep S p b { S with
        branches := S.branches.set p { b with phase := .ended (.rejected .aborted) } }
  | settles {work : Work} {outcome : FetchOutcome} : b.phase = .fetching work →
      Answered host answers (b.call work) outcome → BranchStep S p b { S with
        limiter := S.limiter.finish p
        branches := S.branches.set p { b with phase := .answered work outcome } }
  | forks {configuration : String} {decoded : ParsedEntityStatement} {endpoint : Json}
      {outcome : FetchOutcome} {level : Level} (es : List FederationError) {incomplete : Bool}
      {S' : Resolution} :
      b.phase = .answered (.statement configuration decoded endpoint) outcome →
      S' = { S with
        errors := S.errors ++ es.map (p, ·)
        incomplete := incomplete
        branches := (fork S.branches p (level.hints.map fun hint => { level, hint })).set p
          { b with phase := .recursing level } } →
      (S.incomplete = true → incomplete = true) →
      Recurses host anchors options leaf answers S' b level → BranchStep S p b S'
  | joins {level : Level} : b.phase = .recursing level → S.AllSettled p level →
      BranchStep S p b (S.joinBranches host p b level)

/-- All that a step outside of the branches can do. -/
inductive RootStep (S : Resolution) : Resolution → Prop
  | begins {result : TrustChainResult} : S.phase = .start → result.chains = [] →
      result.incomplete = true → RootStep S (S.returnResult result)
  | fetches : S.phase = .start → S.remaining ≠ 0 → RootStep S { S with
        remaining := S.remaining - 1
        started := S.started ++ [(0, .entityConfiguration (.str leaf))]
        phase := .fetching }
  | settles {outcome : FetchOutcome} : S.phase = .fetching →
      Answered host answers (.entityConfiguration (.str leaf)) outcome →
      RootStep S { S with phase := .answered outcome }
  | fetched {outcome : FetchOutcome} : S.phase = .answered outcome →
      RootStep S (S.leafFetched host anchors options leaf outcome)
  | joins {level : Level} : S.phase = .building → S.root = some level → S.AllSettled [] level →
      RootStep S (S.joinLeaf host level)
  | finishes : S.phase = .built → RootStep S S.finish
  | aborts : S.aborted = false →
      RootStep S { S with aborted := true, limiter := S.limiter.abort }

/-! ## The steps -/

/-- All that `buildChains` can do up to where it waits. -/
inductive Built (S : Resolution) (p : NodePath) (entityId : String) (hints : Json)
    (chainSoFar visited : List String) (depth : Nat) : Resolution × Except Reason (Option Level) → Prop
  | pruned (es : List FederationError) :
      Built S p entityId hints chainSoFar visited depth
        ({ S with errors := S.errors ++ es.map (p, ·), incomplete := true }, .ok none)
  | throws (es : List FederationError) (incomplete : Bool) : depth ≤ options.maxChainDepth →
      S.aborted = false → (S.incomplete = true → incomplete = true) → hints.isArray = false →
      Built S p entityId hints chainSoFar visited depth
        ({ S with errors := S.errors ++ es.map (p, ·), incomplete := incomplete }, .error .typeError)
  | forks {items : List Json} {level : Level} (es : List FederationError) (incomplete : Bool) :
      hints = .arr items → depth ≤ options.maxChainDepth →
      (S.incomplete = true → incomplete = true) →
      (incomplete = false → items.length ≤ options.maxAuthorityHints) →
      level = { entityId, chainSoFar, visited, depth, hints := keptHints host options entityId items } →
        Built S p entityId hints chainSoFar visited depth
          ({ S with
            errors := S.errors ++ es.map (p, ·)
            incomplete := incomplete
            branches := fork S.branches p (level.hints.map fun hint => { level, hint }) },
            .ok (some level))

end System

section Inversion

variable {host : ResolutionHost} {anchors : TrustAnchorSet} {options : ResolutionOptions}
  {leaf : String} {answers : FetchCall → FetchOutcome → Prop} {S : Resolution} {p : NodePath} {b : Branch}

theorem checkHintLimit_cases (S : Resolution) (options : ResolutionOptions) (p : NodePath) (length : Nat) :
    ∃ (es : List FederationError) (incomplete : Bool), S.checkHintLimit options p length =
        { S with errors := S.errors ++ es.map (p, ·), incomplete := incomplete } ∧
      (S.incomplete = true → incomplete = true) ∧
      (incomplete = false → length ≤ options.maxAuthorityHints) := by
  unfold checkHintLimit
  split
  · exact ⟨[_], true, rfl, fun _ => rfl, by simp⟩
  · rename_i hle
    exact ⟨[], S.incomplete, by simp, id, fun _ => not_lt.mp hle⟩

theorem buildChains_cases (S : Resolution) (p : NodePath) (entityId : String) (hints : Json)
    (chainSoFar visited : List String) (depth : Nat) :
    Built host options S p entityId hints chainSoFar visited depth
      (S.buildChains host options p entityId hints chainSoFar visited depth) := by
  unfold buildChains
  split
  · exact .pruned [_]
  · rename_i hdepth
    split
    · have hnone : S.errors = S.errors ++ ([] : List FederationError).map (p, ·) := by simp
      rw [show ({ S with incomplete := true } : Resolution) = { S with
        errors := S.errors ++ ([] : List FederationError).map (p, ·), incomplete := true } by
          rw [← hnone]]
      exact .pruned []
    · rename_i haborted
      have haborted : S.aborted = false := by simpa using haborted
      split
      · rename_i items
        obtain ⟨es, incomplete, heq, hmono, hle⟩ := checkHintLimit_cases S options p items.length
        simp only [heq]
        exact .forks es incomplete rfl (not_lt.mp hdepth) hmono hle rfl
      · rename_i text
        obtain ⟨es, incomplete, heq, hmono, -⟩ :=
          checkHintLimit_cases S options p (utf16 text).length
        rw [heq]
        exact .throws es incomplete (not_lt.mp hdepth) haborted hmono rfl
      · rename_i hstr hother
        have hnone : S = { S with
            errors := S.errors ++ ([] : List FederationError).map (p, ·), incomplete := S.incomplete } := by
          simp
        have hthrows : Built host options S p entityId hints chainSoFar visited depth ({ S with
            errors := S.errors ++ ([] : List FederationError).map (p, ·)
            incomplete := S.incomplete }, .error .typeError) := by
          refine .throws [] S.incomplete (not_lt.mp hdepth) haborted id ?_
          cases hints with
          | arr items => exact absurd rfl (hstr items)
          | _ => rfl
        rwa [← hnone] at hthrows

theorem keptHints_length {entityId : String} {items : List Json} :
    (keptHints host options entityId items).length ≤ options.maxAuthorityHints := by
  have htake : (items.take options.maxAuthorityHints).length ≤ options.maxAuthorityHints :=
    List.length_take_le _ _
  unfold keptHints
  simp only
  split
  · exact htake
  · exact le_trans (List.length_filter_le _ _) htake

/-- Only strings have a configuration. -/
theorem string_of_answered {hint : Json} {configuration : String}
    (h : Answered host answers (.entityConfiguration hint) (.returned (.ok configuration))) :
    ∃ s, hint = .str s := by
  obtain ⟨answer, -, heq⟩ := h
  cases hint with
  | str s => exact ⟨s, rfl⟩
  | _ => simp [FetchCall.outcome] at heq

theorem hint_eq {configuration : String} (h : Answered host answers (.entityConfiguration b.hint)
    (.returned (.ok configuration))) : b.hint = .str b.issuer := by
  obtain ⟨s, hs⟩ := string_of_answered h
  rw [Branch.issuer, hs]
  rfl

/-- What the code has checked when it looks for hints. -/
theorem lacksHints_of_filter {payload : Payload}
    (h : (authorityHints payload).filter (fun v => !lacksHints (some v)) = none) :
    lacksHints (authorityHints payload) = true := by
  cases hauthority : authorityHints payload with
  | none => rfl
  | some v => simpa [hauthority, Option.filter] using h

/-- A branch ends without an error. -/
theorem end_step {how : BranchEnd} (hrun : Running b) (hleaf : forked (.ended how) = none)
    (hquiet : ¬ Reported how) (hdrops : how = .dropped → Drops host anchors b)
    (hfate : Fate host anchors options leaf answers (S.setPhase p b (.ended how)) b how) :
    BranchStep host anchors options leaf answers S p b (S.setPhase p b (.ended how)) := by
  refine .ends [] [] hrun ?_ id (le_refl _) hleaf (fun h => absurd h hquiet) (by simp) hdrops hfate
  simp [setPhase]

/-- A branch ends with an error. -/
theorem report_step {how : BranchEnd} {e : FederationError} (hrun : Running b)
    (hleaf : forked (.ended how) = none) (hreported : Reported how)
    (hfate : Fate host anchors options leaf answers ((S.report p e).setPhase p b (.ended how)) b how) :
    BranchStep host anchors options leaf answers S p b
      ((S.report p e).setPhase p b (.ended how)) := by
  refine .ends [e] [] hrun ?_ id (le_refl _) hleaf (by simp) (by simp) ?_ hfate
  · simp [setPhase, report]
  · rintro rfl
    exact hreported.elim

theorem callLimiter_step {work : Work} (hrun : Running b) (hremaining : S.remaining ≠ 0)
    (hgot : Got host answers b work) : BranchStep host anchors options leaf answers S p b
      ({ S with remaining := S.remaining - 1 }.callLimiter options p b work) := by
  unfold callLimiter
  split
  · rename_i haborted
    refine .ends [] [] hrun ?_ id (Nat.sub_le S.remaining 1) rfl (by simp [Reported]) (by simp)
      (by simp) (.aborted haborted)
    simp [setPhase]
  · rename_i haborted
    exact .waits hrun (by simpa using haborted) hremaining hgot

theorem outOfBudget_step (hrun : Running b) : BranchStep host anchors options leaf answers S p b
    ((S.outOfBudget p).setPhase p b (.ended .overBudget)) := by
  refine .ends [chainError "Fetch budget exhausted"] [] hrun ?_ (fun _ => rfl) (le_refl _) rfl
    (by simp) (by simp) (by simp) (.overBudget rfl)
  simp [setPhase, outOfBudget, report]

theorem enterHint_step (hphase : b.phase = .entering) :
    BranchStep host anchors options leaf answers S p b (S.enterHint options p b) := by
  unfold enterHint
  split
  · rename_i hloop
    obtain ⟨s, hs, hmem⟩ : ∃ s, b.hint = .str s ∧ s ∈ b.level.visited := by
      cases hhint : b.hint with
      | str s => exact ⟨s, rfl, by simpa [hhint, Json.string?] using hloop⟩
      | _ => simp [hhint, Json.string?] at hloop
    exact report_step (.inl hphase) rfl trivial (.looped hs hmem)
  · rename_i hfresh
    split
    · exact outOfBudget_step (.inl hphase)
    · rename_i hremaining
      refine callLimiter_step (.inl hphase) hremaining ⟨fun s hs hmem => hfresh ?_, by simp⟩
      simp [hs, Json.string?, hmem]

theorem configurationFetched_step {outcome : FetchOutcome}
    (hphase : b.phase = .answered .configuration outcome)
    (hgot : Got host answers b .configuration)
    (houtcome : Answered host answers (b.call .configuration) outcome) :
    BranchStep host anchors options leaf answers S p b
      (S.configurationFetched host options p b outcome) := by
  have hrun : Running b := .inr ⟨_, _, hphase⟩
  unfold configurationFetched
  split
  · exact end_step hrun rfl (by simp [Reported]) (by simp) (.rejected hgot houtcome)
  · exact report_step hrun rfl trivial (.failed hgot houtcome)
  · split
    · rename_i hdecode
      exact report_step hrun rfl trivial (.undecodable houtcome hdecode)
    · rename_i decoded hdecode
      split
      · rename_i hendpoint
        exact report_step hrun rfl trivial (.noEndpoint houtcome hdecode hendpoint)
      · rename_i endpoint hendpoint
        split
        · exact outOfBudget_step hrun
        · rename_i hremaining
          refine callLimiter_step hrun hremaining ⟨hgot.fresh, ?_⟩
          rintro _ _ _ ⟨rfl, rfl, rfl⟩
          exact ⟨houtcome, hdecode, hendpoint⟩

theorem anchorReached_step {configuration statement : String} {decoded : ParsedEntityStatement}
    {endpoint : Json} (hphase : b.phase = .answered (.statement configuration decoded endpoint)
      (.returned (.ok statement)))
    (hattested : Attested host answers b configuration statement decoded)
    (hanchor : (anchors.get? b.issuer).isSome = true) :
    BranchStep host anchors options leaf answers S p b
      (S.anchorReached host p b leaf configuration statement) := by
  have hrun : Running b := .inr ⟨_, _, hphase⟩
  unfold anchorReached
  simp only
  split
  · rename_i hdecode
    exact end_step hrun rfl (by simp [Reported])
      (fun _ => ⟨_, _, _, _, _, hphase, hanchor, hdecode⟩) (.dropped hattested hanchor hdecode)
  · rename_i parsed hdecode
    split
    · rename_i reason hexpires
      exact end_step hrun rfl (by simp [Reported]) (by simp)
        (.unexpiring hattested hanchor hdecode hexpires)
    · rename_i expiresAt hexpires
      let chain : TrustChain :=
        { statements := b.level.chainSoFar ++ [statement, configuration], entityId := leaf
          trustAnchorId := b.issuer, expiresAt := expiresAt }
      have hfate : Fate host anchors options leaf answers ({ S with
          chains := S.chains ++ [chain] }.setPhase p b (.ended (.completed chain))) b
            (.completed chain) := by
        refine .completed hattested hanchor rfl rfl rfl ?_
        simp [setPhase]
      refine .ends [] [chain] hrun ?_ id (le_refl _) rfl (by simp [Reported]) (by simp) (by simp) hfate
      simp [setPhase, chain]

/-- A branch that has got its statement is one hop further up. -/
theorem Attested.climb {configuration statement : String} {decoded : ParsedEntityStatement}
    (hlevel : LevelHolds host options leaf answers b.level)
    (h : Attested host answers b configuration statement decoded) :
    Climb host leaf answers (b.level.visited ++ [b.issuer]) (b.level.chainSoFar ++ [statement]) := by
  have hhint := hint_eq h.fetched
  have hfetched := h.fetched
  rw [hhint] at hfetched
  obtain ⟨endpoint, hendpoint, hstatement⟩ := h.attested
  exact .hop hlevel.climb hlevel.entityId (h.fresh _ hhint) hfetched h.decodes hendpoint hstatement

/-- The level after an attested hop. -/
theorem levelHolds_next {configuration statement : String} {decoded : ParsedEntityStatement}
    {items : List Json} (hlevel : LevelHolds host options leaf answers b.level)
    (hattested : Attested host answers b configuration statement decoded)
    (hdepth : b.level.depth + 1 ≤ options.maxChainDepth) :
    LevelHolds host options leaf answers
      { entityId := b.issuer, chainSoFar := b.level.chainSoFar ++ [statement],
        visited := b.level.visited ++ [b.issuer], depth := b.level.depth + 1,
        hints := keptHints host options b.issuer items } := by
  refine ⟨hattested.climb hlevel, by simp, ?_, hdepth, ?_⟩
  · simp [hlevel.depth]
  · exact keptHints_length

theorem statementFetched_step {configuration : String} {decoded : ParsedEntityStatement}
    {endpoint : Json} {outcome : FetchOutcome}
    (hphase : b.phase = .answered (.statement configuration decoded endpoint) outcome)
    (hlevel : LevelHolds host options leaf answers b.level)
    (hgot : Got host answers b (.statement configuration decoded endpoint))
    (houtcome : Answered host answers (b.call (.statement configuration decoded endpoint)) outcome) :
    BranchStep host anchors options leaf answers S p b
      (S.statementFetched host anchors options leaf p b configuration decoded outcome) := by
  have hrun : Running b := .inr ⟨_, _, hphase⟩
  obtain ⟨hfetched, hdecode, hendpoint⟩ := hgot.work _ _ _ rfl
  unfold statementFetched
  split
  · exact end_step hrun rfl (by simp [Reported]) (by simp) (.rejected hgot houtcome)
  · exact report_step hrun rfl trivial (.failed hgot houtcome)
  · rename_i statement
    have hattested : Attested host answers b configuration statement decoded :=
      ⟨hgot.fresh, hfetched, hdecode, endpoint, hendpoint, houtcome⟩
    split
    · rename_i hanchor
      exact anchorReached_step hphase hattested hanchor
    · rename_i hanchor
      have hanchor : (anchors.get? b.issuer).isSome = false := by simpa using hanchor
      split
      · rename_i hhints
        exact report_step hrun rfl trivial (.noHints hattested hanchor (lacksHints_of_filter hhints))
      · rename_i hints hhints
        have hauthority : authorityHints decoded.payload = some hints :=
          (Option.filter_eq_some_iff.mp hhints).1
        have hcases : Built host options S p b.issuer hints (b.level.chainSoFar ++ [statement])
            (b.level.visited ++ [b.issuer]) (b.level.depth + 1) (S.buildChains host options p b.issuer
              hints (b.level.chainSoFar ++ [statement]) (b.level.visited ++ [b.issuer])
              (b.level.depth + 1)) := buildChains_cases _ _ _ _ _ _ _
        generalize S.buildChains host options p b.issuer hints (b.level.chainSoFar ++ [statement])
          (b.level.visited ++ [b.issuer]) (b.level.depth + 1) = built at hcases
        cases hcases with
        | pruned es =>
          refine .ends es [] hrun ?_ (fun _ => rfl) (le_refl _) rfl (by simp [Reported]) (by simp)
            (by simp) (.pruned rfl)
          simp [setPhase]
        | throws es incomplete hdepth haborted hmono hlist =>
          refine .ends es [] hrun ?_ hmono (le_refl _) rfl (by simp [Reported]) (by simp)
            (by simp) (.noList hattested hanchor hauthority hlist)
          simp [setPhase]
        | @forks items level es incomplete hitems hdepth hmono hle hnext =>
          refine .forks es hphase rfl hmono ⟨?_, configuration, statement, decoded, items, hattested,
            hanchor, by rw [hauthority, hitems], hle, hnext⟩
          rw [hnext]
          exact levelHolds_next hlevel hattested hdepth

/-- What holds of a branch. -/
structure BranchHolds (host : ResolutionHost) (anchors : TrustAnchorSet) (options : ResolutionOptions)
    (leaf : String) (answers : FetchCall → FetchOutcome → Prop) (S : Resolution) (b : Branch) :
    Prop where
  level : LevelHolds host options leaf answers b.level
  phase : PhaseHolds host anchors options leaf answers S b b.phase

/-- A branch goes on with the outcome of its fetch. -/
theorem continueBranch_step {work : Work} {outcome : FetchOutcome}
    (hphase : b.phase = .answered work outcome)
    (hholds : BranchHolds host anchors options leaf answers S b) :
    BranchStep host anchors options leaf answers S p b
      (S.continueBranch host anchors options leaf p b work outcome) := by
  obtain ⟨hlevel, hp⟩ := hholds
  rw [hphase] at hp
  unfold continueBranch
  split
  · exact configurationFetched_step hphase hp.1 hp.2
  · exact statementFetched_step hphase hlevel hp.1 hp.2

/-- Every step is one of a branch, or one outside of the branches. -/
theorem advance_cases {S' : Resolution} (h : Advance host anchors options leaf answers S S')
    (hholds : ∀ p b, S.branches.get? p = some b → BranchHolds host anchors options leaf answers S b) :
    RootStep host anchors options leaf answers S S' ∨ ∃ p b, S.branches.get? p = some b ∧
      BranchStep host anchors options leaf answers S p b S' := by
  cases h with
  | begin hphase =>
    left
    unfold begin
    split
    · exact .begins hphase rfl rfl
    · rename_i hremaining
      exact .fetches hphase hremaining
  | @settleLeaf answer hphase hanswer => exact .inl (.settles hphase ⟨answer, hanswer, rfl⟩)
  | leafFetched hphase => exact .inl (.fetched hphase)
  | joinLeaf hphase hroot hsettled => exact .inl (.joins hphase hroot hsettled)
  | finish hphase => exact .inl (.finishes hphase)
  | @enterHint p b hget hphase => exact .inr ⟨p, b, hget, enterHint_step hphase⟩
  | @resume p b work hget hphase hgranted =>
    refine .inr ⟨p, b, hget, ?_⟩
    unfold resume
    split
    · rename_i haborted
      exact .refused hphase hgranted haborted
    · rename_i haborted
      exact .resumes hphase hgranted (by simpa using haborted)
  | @reject p b work hget hphase haborted hpending =>
    exact .inr ⟨p, b, hget, .rejects hphase hpending haborted⟩
  | @settleFetch p b work answer hget hphase hanswer =>
    exact .inr ⟨p, b, hget, .settles hphase ⟨answer, hanswer, rfl⟩⟩
  | @continueBranch p b work outcome hget hphase =>
    exact .inr ⟨p, b, hget, continueBranch_step hphase (hholds p b hget)⟩
  | @joinBranches p b level hget hphase hsettled =>
    exact .inr ⟨p, b, hget, .joins hphase hsettled⟩

theorem step_cases {S' : Resolution} (h : Step host anchors options leaf answers S S')
    (hholds : ∀ p b, S.branches.get? p = some b → BranchHolds host anchors options leaf answers S b) :
    RootStep host anchors options leaf answers S S' ∨ ∃ p b, S.branches.get? p = some b ∧
      BranchStep host anchors options leaf answers S p b S' := by
  cases h with
  | advance h => exact advance_cases h hholds
  | abort haborted => exact .inl (.aborts haborted)

/-! ## The leaf -/

/-- The leaf's configuration breaks the discovery: its fetch is rejected, or one of its claims has a
value on which the code throws. -/
inductive LeafBreaks (host : ResolutionHost) (anchors : TrustAnchorSet) (options : ResolutionOptions)
    (leaf : String) (aborted : Bool) : FetchOutcome → Prop
  | rejected (reason : Reason) : LeafBreaks host anchors options leaf aborted (.rejected reason)
  | identity {configuration : String} {decoded : ParsedEntityStatement} :
      decodeEntityStatement host.toPlatform configuration = .ok decoded →
      host.text (decoded.payload.get? "iss") = none ∨
        host.text (decoded.payload.get? "sub") = none →
      LeafBreaks host anchors options leaf aborted (.returned (.ok configuration))
  | expiration {configuration : String} {decoded : ParsedEntityStatement} :
      decodeEntityStatement host.toPlatform configuration = .ok decoded → decoded.IsOf leaf →
      (anchors.get? leaf).isSome = true → lacksHints (authorityHints decoded.payload) = true →
      host.text (decoded.payload.get? "exp") = none →
      LeafBreaks host anchors options leaf aborted (.returned (.ok configuration))
  | hints {configuration : String} {decoded : ParsedEntityStatement} {hints : Json} :
      decodeEntityStatement host.toPlatform configuration = .ok decoded → decoded.IsOf leaf →
      authorityHints decoded.payload = some hints → lacksHints (some hints) = false →
      hints.isArray = false → 1 ≤ options.maxChainDepth → aborted = false →
      LeafBreaks host anchors options leaf aborted (.returned (.ok configuration))

/-- The level of the leaf. -/
structure StartsFrom (host : ResolutionHost) (options : ResolutionOptions) (leaf : String)
    (incomplete : Bool) (outcome : FetchOutcome) (level : Level) : Prop where
  bounded : 1 ≤ options.maxChainDepth
  starts : ∃ configuration decoded items, outcome = .returned (.ok configuration) ∧
    decodeEntityStatement host.toPlatform configuration = .ok decoded ∧
    authorityHints decoded.payload = some (.arr items) ∧
    (incomplete = false → items.length ≤ options.maxAuthorityHints) ∧
    level = { entityId := leaf, chainSoFar := [configuration], visited := [leaf], depth := 1,
              hints := keptHints host options leaf items }

/-- Why `resolveTrustChains` returns without a walk, and what. -/
inductive LeafEnds (host : ResolutionHost) (anchors : TrustAnchorSet) (leaf : String) :
    FetchOutcome → TrustChainResult → Prop
  | failed (e : FederationError) (incomplete : Bool) : LeafEnds host anchors leaf
      (.returned (.error e)) { chains := [], errors := [e], incomplete }
  | undecodable {configuration : String} {e : FederationError} :
      decodeEntityStatement host.toPlatform configuration = .error e →
      LeafEnds host anchors leaf (.returned (.ok configuration)) { chains := [], errors := [e] }
  | mismatched {configuration : String} {decoded : ParsedEntityStatement} (e : FederationError) :
      decodeEntityStatement host.toPlatform configuration = .ok decoded → ¬ decoded.IsOf leaf →
      LeafEnds host anchors leaf (.returned (.ok configuration)) { chains := [], errors := [e] }
  | anchor {configuration : String} {decoded : ParsedEntityStatement} (expiresAt : Option Rat) :
      decodeEntityStatement host.toPlatform configuration = .ok decoded →
      lacksHints (authorityHints decoded.payload) = true → (anchors.get? leaf).isSome = true →
      LeafEnds host anchors leaf (.returned (.ok configuration)) { errors := [], chains :=
        [{ statements := [configuration], entityId := leaf, trustAnchorId := leaf, expiresAt }] }
  | noHints {configuration : String} {decoded : ParsedEntityStatement} (e : FederationError) :
      decodeEntityStatement host.toPlatform configuration = .ok decoded →
      lacksHints (authorityHints decoded.payload) = true →
      LeafEnds host anchors leaf (.returned (.ok configuration)) { chains := [], errors := [e] }

/-- All that `resolveTrustChains` does with the leaf's configuration. -/
inductive LeafStep (host : ResolutionHost) (anchors : TrustAnchorSet) (options : ResolutionOptions)
    (leaf : String) (S : Resolution) (outcome : FetchOutcome) : Resolution → Prop
  | returns {result : TrustChainResult} : LeafEnds host anchors leaf outcome result →
      LeafStep host anchors options leaf S outcome (S.returnResult result)
  | rejects (es : List FederationError) (incomplete : Bool) (reason : Reason) {S' : Resolution} :
      LeafBreaks host anchors options leaf S.aborted outcome →
      S' = { S with
        errors := S.errors ++ es.map ([], ·)
        incomplete := incomplete
        phase := .rejected reason } → LeafStep host anchors options leaf S outcome S'
  | pruned (es : List FederationError) : LeafStep host anchors options leaf S outcome { S with
        errors := S.errors ++ es.map ([], ·)
        incomplete := true
        phase := .built }
  | forks (es : List FederationError) {incomplete : Bool} {level : Level} :
      (S.incomplete = true → incomplete = true) →
      StartsFrom host options leaf incomplete outcome level →
      LeafStep host anchors options leaf S outcome { S with
        errors := S.errors ++ es.map ([], ·)
        incomplete := incomplete
        branches := fork S.branches [] (level.hints.map fun hint => { level, hint })
        root := some level
        phase := .building }

theorem unverifiedExpiration_singleton {decoded : ParsedEntityStatement} {reason : Reason}
    (h : unverifiedExpiration host [decoded] = .error reason) :
    host.text (decoded.payload.get? "exp") = none := by
  unfold unverifiedExpiration at h
  split at h
  · rename_i hany
    simpa using hany
  · simp at h

theorem isOf_iff {decoded : ParsedEntityStatement} :
    decoded.IsOf leaf ↔ (!Json.strictEq (decoded.payload.get? "iss") (decoded.payload.get? "sub") ||
      !Json.strictEq (decoded.payload.get? "iss") (some (.str leaf))) = false := by
  rw [Bool.or_eq_false_iff, Bool.not_eq_false', Bool.not_eq_false', Json.strictEq_str]
  constructor
  · rintro ⟨hiss, hsub⟩
    exact ⟨by rw [hiss, hsub, Json.strictEq_str], hiss⟩
  · rintro ⟨heq, hiss⟩
    exact ⟨hiss, (Json.eq_of_strictEq heq).symm.trans hiss⟩

theorem leafFetched_step (S : Resolution) (outcome : FetchOutcome) :
    LeafStep host anchors options leaf S outcome
      (S.leafFetched host anchors options leaf outcome) := by
  have hrejects : ∀ reason, LeafBreaks host anchors options leaf S.aborted outcome →
      LeafStep host anchors options leaf S outcome { S with phase := .rejected reason } := by
    intro reason hbreaks
    refine .rejects [] S.incomplete reason hbreaks ?_
    simp
  unfold leafFetched
  split
  · exact hrejects _ (.rejected _)
  · exact .returns (.failed _ _)
  · rename_i configuration
    split
    · rename_i hdecode
      exact .returns (.undecodable hdecode)
    · rename_i decoded hdecode
      simp only
      split
      · rename_i hmismatch
        have hnot : ¬ decoded.IsOf leaf := by
          intro hof
          rw [isOf_iff.mp hof] at hmismatch
          exact Bool.false_ne_true hmismatch
        split
        · exact .returns (.mismatched _ hdecode hnot)
        · -- the text of the error is made of both claims, one of which may have none
          rename_i htexts
          refine hrejects _ (.identity hdecode ?_)
          cases hiss : host.text (decoded.payload.get? "iss") with
          | none => exact .inl rfl
          | some issText =>
            cases hsub : host.text (decoded.payload.get? "sub") with
            | none => exact .inr rfl
            | some subText => exact absurd hsub (htexts issText subText hiss)
      · rename_i hmatch
        have hof : decoded.IsOf leaf := isOf_iff.mpr (by simpa using hmatch)
        split
        · rename_i hhints
          have hlacks := lacksHints_of_filter hhints
          split
          · rename_i hanchor
            split
            · rename_i hexpires
              exact hrejects _ (.expiration hdecode hof hanchor hlacks
                (unverifiedExpiration_singleton hexpires))
            · exact .returns (.anchor _ hdecode hlacks hanchor)
          · exact .returns (.noHints _ hdecode hlacks)
        · rename_i hints hhints
          obtain ⟨hauthority, hlacks⟩ := Option.filter_eq_some_iff.mp hhints
          -- no hint, or too many, or an exception on one of them, or branches
          have hcases : Built host options S [] leaf hints [configuration] [leaf] 1
              (S.buildChains host options [] leaf hints [configuration] [leaf] 1) :=
            buildChains_cases _ _ _ _ _ _ _
          generalize S.buildChains host options [] leaf hints [configuration] [leaf] 1 = built
            at hcases
          cases hcases with
          | pruned es => exact .pruned es
          | throws es incomplete hdepth haborted hmono hlist =>
            exact .rejects es incomplete .typeError
              (.hints hdecode hof hauthority (by simpa using hlacks) hlist hdepth haborted) rfl
          | forks es incomplete hitems hdepth hmono hle hlevel =>
            exact .forks es hmono ⟨hdepth, configuration, decoded, _, rfl, hdecode,
              by rw [hauthority, hitems], hle, hlevel⟩

end Inversion

end Resolution

end OidFed
