import OidFed.Resolve.Tree

/-!
# What holds throughout a discovery

* `BranchEffect`: what a step of a branch changes, and what it leaves (`branchStep_effect`).
* `Kept`: the invariant. The branches are a tree, of each branch is known what it has got or why it
  has ended, and every chain is that of a branch. `Kept.step`, `kept_of_reach`.
* `Tree.all_ended`: when the leaf has joined, all branches have ended.
* `Returned`, `returned_of_reach`: where a result comes from.
-/

namespace OidFed

open Js ForkJoin

namespace Resolution

section Definitions

variable (host : ResolutionHost) (anchors : TrustAnchorSet) (options : ResolutionOptions)
  (leaf : String) (answers : FetchCall → FetchOutcome → Prop)

/-- What a step makes of a branch. -/
inductive BranchShape (S : Resolution) (p : NodePath) (b : Branch) (S' : Resolution) : Prop
  | stays {phase : BranchPhase} : Stays S p b phase S' →
      (∀ level, phase = .ended (.recursed (some level)) → S.AllSettled p level) →
      PhaseHolds host anchors options leaf answers S' b phase → BranchShape S p b S'
  | forks {level : Level} : Forks S p b level S' →
      Recurses host anchors options leaf answers S' b level → BranchShape S p b S'

structure BranchEffect (S : Resolution) (p : NodePath) (b : Branch) (S' : Resolution) : Prop where
  grows : Grows S S'
  phase : S'.phase = S.phase
  chains : ∀ chain ∈ S'.chains, chain ∈ S.chains ∨ S'.endOf p = some (.completed chain)
  shape : BranchShape host anchors options leaf answers S p b S'

/-- What is known of the leaf by where `resolveTrustChains` is. -/
def RootHolds (S : Resolution) : RootPhase → Prop
  | .start => S.root = none
  | .fetching => S.root = none
  | .answered outcome =>
    S.root = none ∧ Answered host answers (.entityConfiguration (.str leaf)) outcome
  | .building => S.root.isSome = true
  | .built => (S.root = none → S.incomplete = true) ∧
    ∀ level, S.root = some level → S.AllSettled [] level
  | .returned _ => ∀ level, S.root = some level → S.AllSettled [] level
  | .rejected _ => S.root = none ∧ ∃ outcome aborted,
    Answered host answers (.entityConfiguration (.str leaf)) outcome ∧
      LeafBreaks host anchors options leaf aborted outcome

structure Kept (S : Resolution) : Prop where
  tree : Tree S
  branch : ∀ {p : NodePath} {b : Branch}, S.branches.get? p = some b →
    BranchHolds host anchors options leaf answers S b
  root : ∀ {level : Level}, S.root = some level → ∃ outcome,
    Answered host answers (.entityConfiguration (.str leaf)) outcome ∧
      StartsFrom host options leaf S.incomplete outcome level
  phase : RootHolds host anchors options leaf answers S S.phase
  chains : ∀ chain ∈ S.chains, ∃ p, S.endOf p = some (.completed chain)

end Definitions

variable {host : ResolutionHost} {anchors : TrustAnchorSet} {options : ResolutionOptions}
  {leaf : String} {answers : FetchCall → FetchOutcome → Prop} {S S' : Resolution} {p : NodePath}
  {b : Branch}

/-! ## Steps of branches -/

theorem Running.active (h : Running b) : Active b := by
  rintro how hphase
  rcases h with h | ⟨work, outcome, h⟩ <;> rw [h] at hphase <;> simp at hphase

theorem Running.forked (h : Running b) : forked b.phase = none := by
  rcases h with h | ⟨work, outcome, h⟩ <;> rw [h] <;> rfl

theorem active_of_phase {phase : BranchPhase} (hphase : b.phase = phase)
    (h : ∀ how, phase ≠ .ended how) : Active b := by
  intro how hended
  exact h how (hphase.symm.trans hended)

theorem grows_of_same (hincomplete : S'.incomplete = S.incomplete) (haborted : S'.aborted = S.aborted)
    (hchains : S'.chains = S.chains) (herrors : S'.errors = S.errors) : Grows S S' := by
  refine ⟨?_, ?_, ?_, ?_⟩
  · rw [hincomplete]; exact id
  · rw [haborted]; exact id
  · rw [hchains]; exact List.Subset.refl _
  · rw [herrors]; exact List.Subset.refl _

theorem Grows.refl (S : Resolution) : Grows S S := grows_of_same rfl rfl rfl rfl

/-- A step that only moves the branch on. -/
theorem effect_of_move {phase : BranchPhase} (hget : S.branches.get? p = some b) (hactive : Active b)
    (hbranches : S'.branches = S.branches.set p { b with phase := phase }) (hroot : S'.root = S.root)
    (hforked : forked phase = forked b.phase) (hgrows : Grows S S') (hphase : S'.phase = S.phase)
    (hchains : S'.chains = S.chains)
    (hjoin : ∀ level, phase = .ended (.recursed (some level)) → S.AllSettled p level)
    (hholds : PhaseHolds host anchors options leaf answers S' b phase) :
    BranchEffect host anchors options leaf answers S p b S' := by
  refine ⟨hgrows, hphase, fun chain hchain => .inl (hchains ▸ hchain), ?_⟩
  exact .stays ⟨hget, hactive, hbranches, hroot, hforked⟩ hjoin hholds

theorem collectRejections_grows (S : Resolution) (host : ResolutionHost) (p : NodePath)
    (level : Level) : Grows S (S.collectRejections host p level) := by
  refine ⟨fun h => ?_, id, List.Subset.refl _, List.subset_append_left _ _⟩
  simp [collectRejections, h]

theorem branchStep_effect (h : BranchStep host anchors options leaf answers S p b S')
    (hget : S.branches.get? p = some b)
    (hholds : PhaseHolds host anchors options leaf answers S b b.phase) :
    BranchEffect host anchors options leaf answers S p b S' := by
  cases h with
  | @ends how es cs incomplete remaining _ hrun heq hmono hremaining hforked hreported hcompleted _
      hfate =>
    subst heq
    -- the branch ends: chains may be new, and each of them is its own
    have hstays : Stays S p b (.ended how) { S with
        remaining := remaining
        chains := S.chains ++ cs
        errors := S.errors ++ es.map (p, ·)
        incomplete := incomplete
        branches := S.branches.set p { b with phase := .ended how } } :=
      ⟨hget, hrun.active, rfl, rfl, hforked.trans hrun.forked.symm⟩
    refine ⟨⟨hmono, id, List.subset_append_left _ _, List.subset_append_left _ _⟩, rfl, ?_, ?_⟩
    · intro chain hchain
      rcases List.mem_append.mp hchain with hold | hnew
      · exact .inl hold
      · refine .inr (endOf_eq_some.mpr ⟨_, hstays.get?_self, ?_⟩)
        rw [hcompleted chain hnew]
    · refine .stays hstays (fun level hlevel => ?_) hfate
      obtain rfl := BranchPhase.ended.inj hlevel
      simp [forked] at hforked
  | waits hrun haborted hremaining hgot =>
    exact effect_of_move hget hrun.active rfl rfl hrun.forked.symm (grows_of_same rfl rfl rfl rfl)
      rfl rfl (by simp) hgot
  | resumes hphase hgranted haborted =>
    rw [hphase] at hholds
    exact effect_of_move hget (active_of_phase hphase (by simp)) rfl rfl (by rw [hphase]; rfl)
      (grows_of_same rfl rfl rfl rfl) rfl rfl (by simp) hholds
  | refused hphase hgranted haborted =>
    exact effect_of_move hget (active_of_phase hphase (by simp)) rfl rfl (by rw [hphase]; rfl)
      (grows_of_same rfl rfl rfl rfl) rfl rfl (by simp) (Fate.aborted haborted)
  | rejects hphase hpending haborted =>
    exact effect_of_move hget (active_of_phase hphase (by simp)) rfl rfl (by rw [hphase]; rfl)
      (grows_of_same rfl rfl rfl rfl) rfl rfl (by simp) (Fate.aborted haborted)
  | settles hphase houtcome =>
    rw [hphase] at hholds
    exact effect_of_move hget (active_of_phase hphase (by simp)) rfl rfl (by rw [hphase]; rfl)
      (grows_of_same rfl rfl rfl rfl) rfl rfl (by simp) ⟨hholds, houtcome⟩
  | @forks configuration decoded endpoint outcome level es incomplete _ hphase heq hmono hrecurses =>
    subst heq
    refine ⟨⟨hmono, id, List.Subset.refl _, List.subset_append_left _ _⟩, rfl,
      fun chain hchain => .inl hchain, .forks ⟨hget, ?_, rfl, rfl, ?_⟩ hrecurses⟩
    · exact active_of_phase hphase (by simp)
    · rw [hphase]; rfl
  | @joins level hphase hsettled =>
    rw [hphase] at hholds
    have hgrows : Grows S (S.joinBranches host p b level) := by
      have hcollect := collectRejections_grows S host p level
      exact ⟨hcollect.incomplete, hcollect.aborted, hcollect.chains, hcollect.errors⟩
    refine effect_of_move hget (active_of_phase hphase (by simp)) rfl rfl (by rw [hphase]; rfl)
      hgrows rfl rfl ?_ (Fate.recursed (Recurses.grows hgrows hholds b.phase))
    intro level' hlevel
    obtain rfl : level = level' := by simpa using hlevel
    exact hsettled

/-! ## The invariant -/

theorem RootHolds.keeps {phase : RootPhase} (hgrows : Grows S S') (hroot : S'.root = S.root)
    (hkeeps : KeepsEnds S S') (h : RootHolds host anchors options leaf answers S phase) :
    RootHolds host anchors options leaf answers S' phase := by
  cases phase with
  | start => exact hroot.trans h
  | fetching => exact hroot.trans h
  | answered outcome => exact ⟨hroot.trans h.1, h.2⟩
  | building => exact (congrArg Option.isSome hroot).trans h
  | built =>
    refine ⟨fun hnone => hgrows.incomplete (h.1 (hroot.symm.trans hnone)), fun level hlevel => ?_⟩
    exact hkeeps.allSettled (h.2 level (hroot.symm.trans hlevel))
  | returned result =>
    exact fun level hlevel => hkeeps.allSettled (h level (hroot.symm.trans hlevel))
  | rejected reason => exact ⟨hroot.trans h.1, h.2⟩

theorem BranchShape.keepsEnds (h : BranchShape host anchors options leaf answers S p b S')
    (htree : Tree S) : KeepsEnds S S' ∧ S'.root = S.root ∧ Tree S' := by
  cases h with
  | stays hstays hjoin _ => exact ⟨hstays.keepsEnds, hstays.root, stays_tree htree hstays hjoin⟩
  | forks hforks _ => exact ⟨hforks.keepsEnds htree, hforks.root, forks_tree htree hforks⟩

theorem Kept.branchStep (hkept : Kept host anchors options leaf answers S)
    (hget : S.branches.get? p = some b)
    (h : BranchStep host anchors options leaf answers S p b S') :
    Kept host anchors options leaf answers S' := by
  have hb := hkept.branch hget
  have heffect := branchStep_effect h hget hb.phase
  obtain ⟨hkeeps, hroot, htree⟩ := heffect.shape.keepsEnds hkept.tree
  refine ⟨htree, fun {q c} hc => ?_, fun {level} hlevel => ?_, ?_, fun chain hchain => ?_⟩
  · cases heffect.shape with
    | stays hstays _ hphase =>
      rcases hstays.get?_some hc with ⟨rfl, rfl⟩ | ⟨-, hold⟩
      · exact ⟨hb.level, hphase.grows (Grows.refl _) _⟩
      · exact (hkept.branch hold).grows heffect.grows
    | forks hforks hrecurses =>
      rcases hforks.get?_some hkept.tree hc with ⟨rfl, rfl⟩ | ⟨i, hint, -, -, rfl⟩ | ⟨-, hold⟩
      · exact ⟨hb.level, Recurses.grows (Grows.refl _) hrecurses _⟩
      · exact ⟨hrecurses.holds, trivial⟩
      · exact (hkept.branch hold).grows heffect.grows
  · obtain ⟨outcome, houtcome, hstarts⟩ := hkept.root (hroot.symm.trans hlevel)
    exact ⟨outcome, houtcome, hstarts.grows heffect.grows⟩
  · rw [heffect.phase]
    exact hkept.phase.keeps heffect.grows hroot hkeeps
  · rcases heffect.chains chain hchain with hold | hnew
    · obtain ⟨q, hq⟩ := hkept.chains chain hold
      exact ⟨q, hkeeps q _ hq⟩
    · exact ⟨p, hnew⟩

/-- A step outside of the branches that leaves them. -/
theorem Kept.outside (hkept : Kept host anchors options leaf answers S) (hgrows : Grows S S')
    (hbranches : S'.branches = S.branches) (hroot : S'.root = S.root) (hchains : S'.chains = S.chains)
    (hphase : RootHolds host anchors options leaf answers S' S'.phase) :
    Kept host anchors options leaf answers S' := by
  have hkeeps : KeepsEnds S S' := keepsEnds_of_branches hbranches
  have hlevelAt : ∀ p, S'.levelAt p = S.levelAt p := by
    intro p
    cases p with
    | nil => exact hroot
    | cons i p => rw [levelAt, hbranches, levelAt]
  have htree := hkept.tree
  refine ⟨⟨?_, ?_, ?_, ?_⟩, ?_, ?_, hphase, ?_⟩
  · rw [hbranches]
    exact htree.nil
  · intro i p b hget
    rw [hlevelAt]
    exact htree.parent (hbranches ▸ hget)
  · intro p level i hlevel hi
    rw [hbranches]
    exact htree.child ((hlevelAt p).symm.trans hlevel) hi
  · intro p b level hget hended
    exact hkeeps.allSettled (htree.settled (hbranches ▸ hget) hended)
  · intro p b hget
    exact (hkept.branch (hbranches ▸ hget)).grows hgrows
  · intro level hlevel
    obtain ⟨outcome, houtcome, hstarts⟩ := hkept.root (hroot.symm.trans hlevel)
    exact ⟨outcome, houtcome, hstarts.grows hgrows⟩
  · intro chain hchain
    obtain ⟨p, hp⟩ := hkept.chains chain (hchains ▸ hchain)
    exact ⟨p, hkeeps p _ hp⟩

/-- The leaf forks its branches. -/
theorem Kept.leafForks {outcome : FetchOutcome} {level : Level}
    (hkept : Kept host anchors options leaf answers S) (hnone : S.root = none)
    (houtcome : Answered host answers (.entityConfiguration (.str leaf)) outcome)
    (hstarts : StartsFrom host options leaf S'.incomplete outcome level)
    (hbranches : S'.branches = fork S.branches [] (level.hints.map fun hint => { level, hint }))
    (hroot : S'.root = some level) (hchains : S'.chains = S.chains) (hphase : S'.phase = .building) :
    Kept host anchors options leaf answers S' := by
  have hempty := hkept.tree.no_branch hnone
  have hchild : ∀ i, S'.branches.get? [i] = level.hints[i]?.map fun hint => { level, hint } := by
    intro i
    rw [hbranches, get?_fork_child, hempty, Option.or_none, List.getElem?_map]
  have hother : ∀ p, (∀ i, p ≠ [i]) → S'.branches.get? p = none := by
    intro p hp
    rw [hbranches, get?_fork_of_ne hp, hempty]
  -- all branches are those of the hints of the leaf, and none of them has begun
  have hbranch : ∀ {p b}, S'.branches.get? p = some b →
      ∃ i hint, p = [i] ∧ level.hints[i]? = some hint ∧ b = { level, hint } := by
    intro p b hget
    by_cases hp : ∃ i, p = [i]
    · obtain ⟨i, rfl⟩ := hp
      rw [hchild, Option.map_eq_some_iff] at hget
      obtain ⟨hint, hhint, rfl⟩ := hget
      exact ⟨i, hint, rfl, hhint, rfl⟩
    · rw [hother p (by simpa using hp)] at hget
      simp at hget
  have hlevel : LevelHolds host options leaf answers level := by
    obtain ⟨configuration, decoded, items, rfl, -, -, -, rfl⟩ := hstarts.starts
    exact ⟨.leaf houtcome, rfl, rfl, hstarts.bounded, keptHints_length⟩
  refine ⟨⟨hother [] (by simp), ?_, ?_, ?_⟩, ?_, ?_, ?_, ?_⟩
  · intro i p b hget
    obtain ⟨j, hint, hp, hhint, rfl⟩ := hbranch hget
    obtain ⟨rfl, rfl⟩ := List.cons.inj hp
    exact ⟨hroot, hhint⟩
  · intro p old i hold hi
    cases p with
    | nil =>
      obtain rfl : level = old := Option.some.inj (hroot.symm.trans hold)
      exact ⟨_, by rw [hchild, List.getElem?_eq_getElem hi]; rfl⟩
    | cons j p =>
      rw [levelAt, Option.bind_eq_some_iff] at hold
      obtain ⟨b, hget, hforked⟩ := hold
      obtain ⟨_, _, _, _, rfl⟩ := hbranch hget
      simp [forked] at hforked
  · intro p b old hget hended
    obtain ⟨_, _, _, _, rfl⟩ := hbranch hget
    simp at hended
  · intro p b hget
    obtain ⟨_, _, _, _, rfl⟩ := hbranch hget
    exact ⟨hlevel, trivial⟩
  · intro old hold
    obtain rfl : level = old := Option.some.inj (hroot.symm.trans hold)
    exact ⟨outcome, houtcome, hstarts⟩
  · rw [hphase]
    exact congrArg Option.isSome hroot
  · -- before the leaf has forked there are no chains
    intro chain hchain
    obtain ⟨p, hp⟩ := hkept.chains chain (hchains ▸ hchain)
    obtain ⟨b, hget, -⟩ := endOf_eq_some.mp hp
    simp [hempty] at hget

theorem Kept.rootStep (hkept : Kept host anchors options leaf answers S)
    (h : RootStep host anchors options leaf answers S S') :
    Kept host anchors options leaf answers S' := by
  have hphase := hkept.phase
  have hsame : Grows S S := Grows.refl S
  cases h with
  | begins hstart _ _ =>
    rw [hstart] at hphase
    refine hkept.outside (grows_of_same rfl rfl rfl rfl) rfl rfl rfl fun level hlevel => ?_
    exact absurd (hphase.symm.trans hlevel) (by simp)
  | fetches hstart _ =>
    rw [hstart] at hphase
    exact hkept.outside (grows_of_same rfl rfl rfl rfl) rfl rfl rfl hphase
  | settles hfetching houtcome =>
    rw [hfetching] at hphase
    exact hkept.outside (grows_of_same rfl rfl rfl rfl) rfl rfl rfl ⟨hphase, houtcome⟩
  | @fetched outcome hanswered =>
    rw [hanswered] at hphase
    obtain ⟨hnone, houtcome⟩ := hphase
    have hstep : LeafStep host anchors options leaf S outcome
        (S.leafFetched host anchors options leaf outcome) := leafFetched_step S outcome
    generalize S.leafFetched host anchors options leaf outcome = S' at hstep
    cases hstep with
    | returns hends =>
      refine hkept.outside (grows_of_same rfl rfl rfl rfl) rfl rfl rfl fun level hlevel => ?_
      exact absurd (hnone.symm.trans hlevel) (by simp)
    | rejects es incomplete reason hbreaks heq =>
      subst heq
      -- there is no branch yet
      have hleaf := hkept.tree.no_branch hnone
      refine ⟨⟨hleaf [], ?_, ?_, ?_⟩, ?_, ?_, ⟨hnone, outcome, S.aborted, houtcome, hbreaks⟩, ?_⟩
      · exact fun hget => absurd hget (by simp [hleaf])
      · intro p level i hlevel hi
        cases p with
        | nil => exact absurd (hnone.symm.trans hlevel) (by simp)
        | cons j p => simp [levelAt, hleaf] at hlevel
      · exact fun hget => absurd hget (by simp [hleaf])
      · exact fun hget => absurd hget (by simp [hleaf])
      · exact fun hlevel => absurd (hnone.symm.trans hlevel) (by simp)
      · exact hkept.chains
    | pruned es =>
      refine hkept.outside ⟨fun _ => rfl, id, List.Subset.refl _, List.subset_append_left _ _⟩ rfl rfl
        rfl ⟨fun _ => rfl, fun level hlevel => ?_⟩
      exact absurd (hnone.symm.trans hlevel) (by simp)
    | forks es hmono hstarts =>
      exact hkept.leafForks hnone houtcome hstarts rfl rfl rfl rfl
  | @joins level hbuilding hroot hsettled =>
    -- joining collects the rejections of the branches, and adds nothing else
    have hgrows : Grows S (S.joinLeaf host level) := by
      have hcollect := collectRejections_grows S host [] level
      exact ⟨hcollect.incomplete, hcollect.aborted, hcollect.chains, hcollect.errors⟩
    refine hkept.outside hgrows rfl rfl rfl ⟨fun hnone => ?_, fun level' hlevel => ?_⟩
    · exact absurd (hroot.symm.trans hnone) (by simp)
    · obtain rfl : level = level' := Option.some.inj (hroot.symm.trans hlevel)
      exact (keepsEnds_of_branches rfl).allSettled hsettled
  | finishes hbuilt =>
    rw [hbuilt] at hphase
    refine hkept.outside (grows_of_same rfl rfl rfl rfl) rfl rfl rfl fun level hlevel => ?_
    exact (keepsEnds_of_branches rfl).allSettled (hphase.2 level hlevel)
  | aborts haborted =>
    have hgrows : Grows S { S with aborted := true, limiter := S.limiter.abort } :=
      ⟨id, fun _ => rfl, List.Subset.refl _, List.Subset.refl _⟩
    exact hkept.outside hgrows rfl rfl rfl
      (hphase.keeps hgrows rfl (keepsEnds_of_branches rfl))

theorem Kept.step (hkept : Kept host anchors options leaf answers S)
    (h : Step host anchors options leaf answers S S') :
    Kept host anchors options leaf answers S' := by
  rcases step_cases h fun _ _ hget => hkept.branch hget with hroot | ⟨p, b, hget, hbranch⟩
  · exact hkept.rootStep hroot
  · exact hkept.branchStep hget hbranch

theorem kept_init (aborted : Bool) : Kept host anchors options leaf answers
    { remaining := options.maxTotalFetches, aborted := aborted } := by
  refine ⟨⟨rfl, ?_, ?_, ?_⟩, ?_, ?_, rfl, by simp⟩
  · exact fun hget => absurd hget (by simp)
  · intro p level i hlevel hi
    cases p with
    | nil => simp [levelAt] at hlevel
    | cons j p => simp [levelAt] at hlevel
  · exact fun hget => absurd hget (by simp)
  · exact fun hget => absurd hget (by simp)
  · exact fun hlevel => absurd hlevel (by simp)

theorem kept_of_reach (h : (resolution host anchors options leaf answers).Reach S) :
    Kept host anchors options leaf answers S :=
  System.Reach.invariant (S := resolution host anchors options leaf answers)
    (I := Kept host anchors options leaf answers)
    (fun _ ⟨aborted, hinit⟩ => hinit ▸ kept_init aborted) (fun _ _ hI hstep => hI.step hstep) h

/-! ## Results -/

/-- When the leaf has joined, all branches have ended. -/
theorem Tree.all_ended (htree : Tree S) (hroot : ∀ level, S.root = some level → S.AllSettled [] level)
    (hget : S.branches.get? p = some b) : ∃ how, b.phase = .ended how := by
  -- from the leaf upwards: who has forked a branch has joined it
  induction p generalizing b with
  | nil => simp [htree.nil] at hget
  | cons i p ih =>
    obtain ⟨hlevel, hhint⟩ := htree.parent hget
    have hi : i < b.level.hints.length := (List.getElem?_eq_some_iff.mp hhint).1
    have hsettled : S.AllSettled p b.level := by
      cases p with
      | nil => exact hroot b.level hlevel
      | cons j p =>
        rw [levelAt, Option.bind_eq_some_iff] at hlevel
        obtain ⟨c, hc, hforked⟩ := hlevel
        obtain ⟨how, hhow⟩ := ih hc
        refine htree.settled hc ?_
        rw [hhow] at hforked ⊢
        cases how with
        | recursed level => rw [show level = some b.level from hforked]
        | _ => simp [forked] at hforked
    obtain ⟨how, hhow⟩ := Option.isSome_iff_exists.mp (hsettled i hi)
    obtain ⟨c, hc, hphase⟩ := endOf_eq_some.mp hhow
    rw [hget] at hc
    obtain rfl := Option.some.inj hc
    exact ⟨how, hphase⟩

section Results

variable (host anchors options leaf answers)

/-- Where a result comes from. -/
inductive Returned (S : Resolution) (result : TrustChainResult) : Prop
  | overBudget : S.root = none → result.chains = [] → result.incomplete = true → Returned S result
  | leaf {outcome : FetchOutcome} : S.root = none →
      Answered host answers (.entityConfiguration (.str leaf)) outcome →
      LeafEnds host anchors leaf outcome result → Returned S result
  | walked {T : Resolution} : (resolution host anchors options leaf answers).Reach T →
      T.phase = .built → S.root = T.root → S.branches = T.branches → S.errors = T.errors →
      result = { chains := T.chains, errors := T.errors.map Prod.snd,
                 incomplete := T.incomplete || T.aborted } → Returned S result

end Results

theorem Returned.of_same {result : TrustChainResult} (hroot : S'.root = S.root)
    (hbranches : S'.branches = S.branches) (herrors : S'.errors = S.errors)
    (h : Returned host anchors options leaf answers S result) :
    Returned host anchors options leaf answers S' result := by
  cases h with
  | overBudget hnone hchains hincomplete => exact .overBudget (hroot.trans hnone) hchains hincomplete
  | leaf hnone houtcome hends => exact .leaf (hroot.trans hnone) houtcome hends
  | walked hreach hbuilt hT hbT heT hresult =>
    exact .walked hreach hbuilt (hroot.trans hT) (hbranches.trans hbT) (herrors.trans heT) hresult

theorem returned_of_step {T : Resolution}
    (hreach : (resolution host anchors options leaf answers).Reach T)
    (hreturned : ∀ result, T.phase = .returned result →
      Returned host anchors options leaf answers T result)
    (hstep : Step host anchors options leaf answers T S) {result : TrustChainResult}
    (hresult : S.phase = .returned result) :
    Returned host anchors options leaf answers S result := by
  have hkept := kept_of_reach hreach
  rcases step_cases hstep fun _ _ hget => hkept.branch hget with hroot | ⟨p, b, hget, hbranch⟩
  · have hphase := hkept.phase
    cases hroot with
    | @begins result' hstart hchains hincomplete =>
      rw [hstart] at hphase
      obtain rfl : result' = result := RootPhase.returned.inj hresult
      exact .overBudget hphase hchains hincomplete
    | fetches hstart _ => simp at hresult
    | settles hfetching houtcome => simp at hresult
    | @fetched outcome hanswered =>
      rw [hanswered] at hphase
      have hleaf : LeafStep host anchors options leaf T outcome
          (T.leafFetched host anchors options leaf outcome) := leafFetched_step T outcome
      generalize T.leafFetched host anchors options leaf outcome = S at hleaf hresult
      cases hleaf with
      | @returns result' hends =>
        obtain rfl : result' = result := RootPhase.returned.inj hresult
        exact .leaf hphase.1 hphase.2 hends
      | rejects es incomplete reason hbreaks heq =>
        subst heq
        simp at hresult
      | pruned es => simp at hresult
      | forks es hmono hstarts => simp at hresult
    | joins hbuilding hroot hsettled => simp [joinLeaf] at hresult
    | finishes hbuilt =>
      exact .walked hreach hbuilt rfl rfl rfl (RootPhase.returned.inj hresult).symm
    | aborts haborted => exact Returned.of_same (S := T) rfl rfl rfl (hreturned result hresult)
  · -- after the result there is no branch that could go on
    exfalso
    have heffect := branchStep_effect hbranch hget (hkept.branch hget).phase
    have hphase := hkept.phase
    rw [← heffect.phase, hresult] at hphase
    obtain ⟨how, hended⟩ := hkept.tree.all_ended hphase hget
    cases heffect.shape with
    | stays hstays _ _ => exact hstays.active how hended
    | forks hforks _ => exact hforks.active how hended

theorem returned_of_reach (h : (resolution host anchors options leaf answers).Reach S)
    {result : TrustChainResult} (hresult : S.phase = .returned result) :
    Returned host anchors options leaf answers S result := by
  have hall := System.Reach.invariant (S := resolution host anchors options leaf answers)
    (I := fun T : Resolution => (resolution host anchors options leaf answers).Reach T ∧
      ∀ result, T.phase = .returned result → Returned host anchors options leaf answers T result)
    (fun T ⟨aborted, hinit⟩ => ⟨.init ⟨aborted, hinit⟩, fun result hT => by simp [hinit] at hT⟩)
    (fun T T' ⟨hreach, hreturned⟩ hstep =>
      ⟨hreach.step hstep, fun result hT' => returned_of_step hreach hreturned hstep hT'⟩) h
  exact hall.2 result hresult

end Resolution

end OidFed
