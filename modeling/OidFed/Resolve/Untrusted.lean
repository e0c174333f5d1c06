import OidFed.Resolve.Complete

/-!
# What untrusted payloads can do to a discovery

* `Sane`: the leaf's configuration is not one on which the code throws, and no branch is about to
  drop a chain. `guarded`: the runs whose steps are all taken from such states.
* `Reports`: nothing is rejected or dropped, and whoever has ended without a chain is reported, at
  once or when the level is joined. Every such step keeps it (`reports_of_reach`).
* `discovery_withstands`: such a run never rejects, and reports every hint that comes to nothing.
* `leafFetched_rejected_iff`: no weaker condition on the leaf would do.
-/

namespace OidFed

open Js ForkJoin

namespace Resolution

section Definitions

variable (host : ResolutionHost) (anchors : TrustAnchorSet) (options : ResolutionOptions)
  (leaf : String) (answers : FetchCall → FetchOutcome → Prop)

structure Sane (S : Resolution) : Prop where
  leaf : ∀ outcome, S.phase = .answered outcome →
    ¬ LeafBreaks host anchors options leaf S.aborted outcome
  branch : ∀ p b, S.branches.get? p = some b → ¬ Drops host anchors b

/-- The runs whose steps are all taken from such states. -/
def guarded : System where
  St := Resolution
  init := (resolution host anchors options leaf answers).init
  step S S' := Sane host anchors options leaf S ∧ Step host anchors options leaf answers S S'

/-- The branches of a call of `buildChains` have been joined. -/
def Joined (S : Resolution) : NodePath → Level → Prop
  | [], level => S.root = some level ∧ (S.phase = .built ∨ ∃ result, S.phase = .returned result)
  | i :: p, level => S.endOf (i :: p) = some (.recursed (some level))

structure Reports (S : Resolution) : Prop where
  unrejected : ∀ reason, S.phase ≠ .rejected reason
  undropped : ∀ p, S.endOf p ≠ some .dropped
  reported : ∀ p how, S.endOf p = some how → Reported how → ∃ e, (p, e) ∈ S.errors
  joined : ∀ p level, Joined S p level → ∀ i < level.hints.length, ∀ reason,
    S.endOf (i :: p) = some (.rejected reason) → ∃ e, (i :: p, e) ∈ S.errors

end Definitions

variable {host : ResolutionHost} {anchors : TrustAnchorSet} {options : ResolutionOptions}
  {leaf : String} {answers : FetchCall → FetchOutcome → Prop} {S S' : Resolution} {p q : NodePath}
  {b : Branch}

theorem reach_of_guarded (h : (guarded host anchors options leaf answers).Reach S) :
    (resolution host anchors options leaf answers).Reach S :=
  System.Reach.invariant (S := guarded host anchors options leaf answers)
    (I := (resolution host anchors options leaf answers).Reach) (fun _ hinit => .init hinit)
    (fun _ _ hreach hstep => hreach.step hstep.2) h

theorem endOf_eq_some_iff_phaseAt {how : BranchEnd} :
    S.endOf q = some how ↔ S.phaseAt q = some (.ended how) := by
  rw [endOf_eq_some, phaseAt_eq_some]

/-- Whoever is joined has branches that have ended. -/
theorem Joined.allSettled {level : Level} (h : Joined S p level) (htree : Tree S)
    (hroot : RootHolds host anchors options leaf answers S S.phase) : S.AllSettled p level := by
  cases p with
  | nil =>
    obtain ⟨hlevel, hphase | ⟨result, hphase⟩⟩ := h
    · rw [hphase] at hroot
      exact hroot.2 level hlevel
    · rw [hphase] at hroot
      exact hroot level hlevel
  | cons i p =>
    obtain ⟨b, hget, hphase⟩ := endOf_eq_some.mp h
    exact htree.settled hget hphase

/-- The branches of a level that were rejected are reported when it is joined. -/
theorem mem_collectRejections {level : Level} {i : Nat} {reason : Reason}
    (hi : i < level.hints.length) (hend : S.endOf (i :: p) = some (.rejected reason)) :
    ∃ e, (i :: p, e) ∈ (S.collectRejections host p level).errors := by
  refine ⟨internalError (if S.aborted then .Timeout else .Network) (reason.description host),
    List.mem_append_right _ (List.mem_filterMap.mpr ⟨i, List.mem_range.mpr hi, ?_⟩)⟩
  rw [rejection, hend]

/-- What a step of a branch adds to the ends. -/
theorem BranchStep.endOf_self (h : BranchStep host anchors options leaf answers S p b S')
    {how : BranchEnd} (hend : S'.endOf p = some how) :
    (Reported how → ∃ e, (p, e) ∈ S'.errors) ∧ (how = .dropped → Drops host anchors b) ∧
      ∀ level, how = .recursed (some level) → ∀ i < level.hints.length, ∀ reason,
        S.endOf (i :: p) = some (.rejected reason) → ∃ e, (i :: p, e) ∈ S'.errors := by
  rw [endOf_eq_some_iff_phaseAt] at hend
  cases h with
  | @ends how' es cs incomplete remaining _ hrun heq _ _ hforked hreported _ hdrops _ =>
    subst heq
    rw [phaseAt_set rfl] at hend
    obtain rfl : how' = how := by simpa using hend
    refine ⟨fun h => ?_, hdrops, ?_⟩
    · obtain ⟨e, he⟩ := List.exists_mem_of_ne_nil es (hreported h)
      exact ⟨e, List.mem_append_right _ (List.mem_map.mpr ⟨e, he, rfl⟩)⟩
    · rintro level rfl
      simp [forked] at hforked
  | waits _ _ _ _ =>
    rw [phaseAt_set rfl] at hend
    simp at hend
  | resumes _ _ _ =>
    rw [phaseAt_set rfl] at hend
    simp at hend
  | refused _ _ _ =>
    rw [phaseAt_set rfl] at hend
    obtain rfl : .rejected .aborted = how := by simpa using hend
    exact ⟨fun h => h.elim, by simp, by simp⟩
  | rejects _ _ _ =>
    rw [phaseAt_set rfl] at hend
    obtain rfl : .rejected .aborted = how := by simpa using hend
    exact ⟨fun h => h.elim, by simp, by simp⟩
  | settles _ _ =>
    rw [phaseAt_set rfl] at hend
    simp at hend
  | forks es hanswered heq _ _ =>
    subst heq
    rw [phaseAt_set rfl] at hend
    simp at hend
  | @joins level hrecursing hsettled =>
    rw [joinBranches, setPhase, phaseAt_set rfl] at hend
    obtain rfl : .recursed (some level) = how := by simpa using hend
    refine ⟨fun h => h.elim, by simp, ?_⟩
    rintro _ ⟨⟩ i hi reason hrejected
    exact mem_collectRejections hi hrejected

theorem Reports.branchStep (hreports : Reports S)
    (hkept : Kept host anchors options leaf answers S) (hget : S.branches.get? p = some b)
    (hsane : ¬ Drops host anchors b)
    (h : BranchStep host anchors options leaf answers S p b S') : Reports S' := by
  have heffect := branchStep_effect h hget (hkept.branch hget).phase
  have hroot : S'.root = S.root := (heffect.shape.keepsEnds hkept.tree).2.1
  have hactive : Active b := by
    cases heffect.shape with
    | stays hstays _ _ => exact hstays.active
    | forks hforks _ => exact hforks.active
  have hunended : ∀ how, S.endOf p ≠ some how := by
    intro how hend
    rw [endOf_eq_some_iff_phaseAt, phaseAt_of_get? hget] at hend
    exact hactive how (Option.some.inj hend)
  have hold : ∀ q how, q ≠ p → S'.endOf q = some how → S.endOf q = some how := by
    intro q how hne hend
    rw [endOf_eq_some_iff_phaseAt] at hend ⊢
    exact (heffect.shape.phaseAt_ne hkept.tree hne (by simp)).mp hend
  have hmore : ∀ {q : NodePath}, (∃ e, (q, e) ∈ S.errors) → ∃ e, (q, e) ∈ S'.errors := by
    rintro q ⟨e, he⟩
    exact ⟨e, heffect.grows.errors he⟩
  -- the branches of a level that was joined before had ended
  have hjoinedBefore : ∀ q level, Joined S q level → ∀ i < level.hints.length, ∀ reason,
      S'.endOf (i :: q) = some (.rejected reason) → ∃ e, (i :: q, e) ∈ S'.errors := by
    intro q level hjoined i hi reason hend
    have hsettled := hjoined.allSettled hkept.tree hkept.phase i hi
    have hne : i :: q ≠ p := by
      rintro rfl
      obtain ⟨how, hhow⟩ := Option.isSome_iff_exists.mp hsettled
      exact hunended how hhow
    exact hmore (hreports.joined q level hjoined i hi reason (hold _ _ hne hend))
  refine ⟨?_, fun q hend => ?_, fun q how hend hrep => ?_, fun q level hjoined => ?_⟩
  · rw [heffect.phase]
    exact hreports.unrejected
  · by_cases hq : q = p
    · subst hq
      exact hsane ((h.endOf_self hend).2.1 rfl)
    · exact hreports.undropped q (hold q _ hq hend)
  · by_cases hq : q = p
    · subst hq
      exact (h.endOf_self hend).1 hrep
    · exact hmore (hreports.reported q how (hold q _ hq hend) hrep)
  · cases q with
    | nil =>
      refine hjoinedBefore [] level ?_
      rw [Joined, hroot, heffect.phase] at hjoined
      exact hjoined
    | cons j q =>
      by_cases hq : j :: q = p
      · subst hq
        intro i hi reason hend
        have hbefore := hold _ _ (ne_child i _) hend
        exact (h.endOf_self hjoined).2.2 level rfl i hi reason hbefore
      · exact hjoinedBefore (j :: q) level (hold _ _ hq hjoined)

/-- A step outside of the branches that leaves them, and joins nothing new. -/
theorem Reports.outside (hreports : Reports S) (hbranches : S'.branches = S.branches)
    (herrors : S.errors ⊆ S'.errors) (hphase : ∀ reason, S'.phase ≠ .rejected reason)
    (hjoined : ∀ level, Joined S' [] level → Joined S [] level ∨ ∀ i < level.hints.length, ∀ reason,
      S.endOf [i] = some (.rejected reason) → ∃ e, ([i], e) ∈ S'.errors) : Reports S' := by
  have hends : ∀ q, S'.endOf q = S.endOf q := by
    intro q
    rw [endOf, hbranches, endOf]
  have hmore : ∀ {q : NodePath}, (∃ e, (q, e) ∈ S.errors) → ∃ e, (q, e) ∈ S'.errors := by
    rintro q ⟨e, he⟩
    exact ⟨e, herrors he⟩
  refine ⟨hphase, fun q hend => ?_, fun q how hend hrep => ?_, fun q level hq i hi reason hend => ?_⟩
  · exact hreports.undropped q ((hends q).symm.trans hend)
  · exact hmore (hreports.reported q how ((hends q).symm.trans hend) hrep)
  · rw [hends] at hend
    cases q with
    | nil =>
      rcases hjoined level hq with hbefore | hnew
      · exact hmore (hreports.joined [] level hbefore i hi reason hend)
      · exact hnew i hi reason hend
    | cons j q =>
      have hbefore : Joined S (j :: q) level := (hends (j :: q)).symm.trans hq
      exact hmore (hreports.joined (j :: q) level hbefore i hi reason hend)

/-- Such a step before the leaf has forked. -/
theorem Reports.early (hreports : Reports S) (hbranches : S'.branches = S.branches)
    (herrors : S.errors ⊆ S'.errors) (hphase : ∀ reason, S'.phase ≠ .rejected reason)
    (hnone : S'.root = none) : Reports S' := by
  refine hreports.outside hbranches herrors hphase fun level hjoined => ?_
  exact absurd (hnone.symm.trans hjoined.1) (by simp)

theorem Reports.rootStep (hreports : Reports S)
    (hkept : Kept host anchors options leaf answers S) (hsane : Sane host anchors options leaf S)
    (h : RootStep host anchors options leaf answers S S') : Reports S' := by
  have hphase := hkept.phase
  cases h with
  | begins hstart _ _ =>
    rw [hstart] at hphase
    exact hreports.early rfl (List.Subset.refl _) (by simp [returnResult]) hphase
  | fetches hstart _ =>
    rw [hstart] at hphase
    exact hreports.early rfl (List.Subset.refl _) (by simp) hphase
  | settles hfetching _ =>
    rw [hfetching] at hphase
    exact hreports.early rfl (List.Subset.refl _) (by simp) hphase
  | @fetched outcome hanswered =>
    rw [hanswered] at hphase
    have hstep : LeafStep host anchors options leaf S outcome
        (S.leafFetched host anchors options leaf outcome) := leafFetched_step S outcome
    generalize S.leafFetched host anchors options leaf outcome = S' at hstep
    cases hstep with
    | returns _ =>
      exact hreports.early rfl (List.Subset.refl _) (by simp [returnResult]) hphase.1
    | rejects es incomplete reason hbreaks _ => exact absurd hbreaks (hsane.leaf outcome hanswered)
    | pruned es =>
      exact hreports.early rfl (List.subset_append_left _ _) (by simp) hphase.1
    | @forks es incomplete level _ _ =>
      have hempty := hkept.tree.no_branch hphase.1
      -- the new branches have not begun, so none of them has ended
      have hnone : ∀ q how, ¬ (({ S with
          errors := S.errors ++ es.map ([], ·)
          incomplete := incomplete
          branches := fork S.branches [] (level.hints.map fun hint => { level, hint })
          root := some level
          phase := .building } : Resolution).endOf q = some how) := by
        intro q how hend
        obtain ⟨b, hget, hb⟩ := endOf_eq_some.mp hend
        rcases get?_fork_eq_some hget with ⟨i, -, hchild⟩ | hold
        · rw [List.getElem?_map, Option.map_eq_some_iff] at hchild
          obtain ⟨hint, -, rfl⟩ := hchild
          simp at hb
        · simp [hempty] at hold
      exact ⟨by simp, fun q => hnone q _, fun q how hend => absurd hend (hnone q how),
        fun q level' _ i _ reason hend => absurd hend (hnone _ _)⟩
  | @joins level hbuilding hroot hsettled =>
    refine hreports.outside rfl (collectRejections_grows S host [] level).errors (by simp [joinLeaf])
      fun level' hjoined => .inr fun i hi reason hend => ?_
    obtain rfl : level = level' := Option.some.inj (hroot.symm.trans hjoined.1)
    exact mem_collectRejections hi hend
  | finishes hbuilt =>
    refine hreports.outside rfl (List.Subset.refl _) (by simp [finish, returnResult])
      fun level hjoined => .inl ⟨hjoined.1, .inl hbuilt⟩
  | aborts _ =>
    exact hreports.outside rfl (List.Subset.refl _) hreports.unrejected
      fun level hjoined => .inl hjoined

theorem reports_init (aborted : Bool) :
    Reports { remaining := options.maxTotalFetches, aborted := aborted } := by
  have hnone : ∀ q how, ¬ (({ remaining := options.maxTotalFetches, aborted := aborted } :
      Resolution).endOf q = some how) := by
    intro q how hend
    obtain ⟨b, hget, -⟩ := endOf_eq_some.mp hend
    simp at hget
  exact ⟨by simp, fun q => hnone q _, fun q how hend => absurd hend (hnone q how),
    fun q level _ i _ reason hend => absurd hend (hnone _ _)⟩

theorem reports_of_reach (h : (guarded host anchors options leaf answers).Reach S) : Reports S := by
  have hall := System.Reach.invariant (S := guarded host anchors options leaf answers)
    (I := fun T : Resolution => Kept host anchors options leaf answers T ∧ Reports T)
    (fun T hinit => ?_) (fun T T' hI hstep => ?_) h
  · exact hall.2
  · obtain ⟨aborted, rfl⟩ := hinit
    exact ⟨kept_init aborted, reports_init aborted⟩
  · obtain ⟨hkept, hreports⟩ := hI
    obtain ⟨hsane, hstep⟩ := hstep
    refine ⟨hkept.step hstep, ?_⟩
    rcases step_cases hstep fun _ _ hget => hkept.branch hget with hroot | ⟨p, b, hget, hbranch⟩
    · exact hreports.rootStep hkept hsane hroot
    · exact hreports.branchStep hkept hget (hsane.branch p b hget) hbranch

/-! ## Results -/

/-- A branch ends with a chain, goes on to the hints of its own, or is reported. -/
def Accounted (S : Resolution) (result : TrustChainResult) (q : NodePath) : Prop :=
  ∃ how, S.endOf q = some how ∧ ((∃ chain, how = .completed chain) ∨ (∃ level, how = .recursed level) ∨
    ∃ e, (q, e) ∈ S.errors ∧ e ∈ result.errors)

/-- Every branch of a result is accounted for. -/
theorem Reports.accounted (hreports : Reports S)
    (hreach : (resolution host anchors options leaf answers).Reach S) {result : TrustChainResult}
    (hresult : S.phase = .returned result) (herrors : result.errors = S.errors.map Prod.snd)
    {level : Level} {i : Nat} (hlevel : S.levelAt p = some level) (hi : i < level.hints.length) :
    Accounted S result (i :: p) := by
  have hkept := kept_of_reach hreach
  have hended : ∀ {q c}, S.branches.get? q = some c → ∃ how, c.phase = .ended how :=
    fun hget => Finished.all_ended hreach (.inl ⟨result, hresult⟩) hget
  obtain ⟨b, hget⟩ := hkept.tree.child hlevel hi
  obtain ⟨how, hhow⟩ := hended hget
  have hend : S.endOf (i :: p) = some how := endOf_eq_some.mpr ⟨b, hget, hhow⟩
  have hmem : (∃ e, (i :: p, e) ∈ S.errors) → ∃ e, (i :: p, e) ∈ S.errors ∧ e ∈ result.errors := by
    rintro ⟨e, he⟩
    refine ⟨e, he, ?_⟩
    rw [herrors]
    exact List.mem_map.mpr ⟨_, he, rfl⟩
  -- whoever has forked the branch has joined it
  have hjoined : Joined S p level := by
    cases p with
    | nil => exact ⟨hlevel, .inr ⟨result, hresult⟩⟩
    | cons j p =>
      rw [levelAt, Option.bind_eq_some_iff] at hlevel
      obtain ⟨c, hc, hforked⟩ := hlevel
      obtain ⟨how', hhow'⟩ := hended hc
      rw [hhow'] at hforked
      refine endOf_eq_some.mpr ⟨c, hc, ?_⟩
      rw [hhow']
      cases how' with
      | recursed next => rw [show next = some level from hforked]
      | _ => simp [forked] at hforked
  refine ⟨how, hend, ?_⟩
  cases how with
  | completed chain => exact .inl ⟨chain, rfl⟩
  | recursed next => exact .inr (.inl ⟨next, rfl⟩)
  | dropped => exact absurd hend (hreports.undropped _)
  | rejected reason => exact .inr (.inr (hmem (hreports.joined p level hjoined i hi reason hend)))
  | looped => exact .inr (.inr (hmem (hreports.reported _ _ hend trivial)))
  | overBudget => exact .inr (.inr (hmem (hreports.reported _ _ hend trivial)))
  | failed e => exact .inr (.inr (hmem (hreports.reported _ _ hend trivial)))
  | noEndpoint => exact .inr (.inr (hmem (hreports.reported _ _ hend trivial)))
  | noHints => exact .inr (.inr (hmem (hreports.reported _ _ hend trivial)))

/-- A run whose steps are all taken from sane states does not reject, goes on until it returns, and
returns every chain and an error for every hint that comes to nothing. -/
theorem discovery_withstands (h : (guarded host anchors options leaf answers).Reach S) :
    (∀ reason, S.phase ≠ .rejected reason) ∧
    (∀ n S', (resolution host anchors options leaf answers).Steps S n S' → n ≤ maxSteps options) ∧
    ((∀ result, S.phase ≠ .returned result) → ¬ InFlight S →
      ∃ S', Advance host anchors options leaf answers S S') ∧
    ∀ result, S.phase = .returned result →
      (∀ p chain, S.endOf p = some (.completed chain) → chain ∈ result.chains) ∧
      (∀ level, S.root = some level → result.errors = S.errors.map Prod.snd) ∧
      ∀ p level, S.levelAt p = some level → ∀ i < level.hints.length,
        Accounted S result (i :: p) := by
  have hreach := reach_of_guarded h
  have hreports := reports_of_reach h
  have hkept := kept_of_reach hreach
  refine ⟨hreports.unrejected, fun n S' hsteps => run_length_le hreach hsteps, ?_, ?_⟩
  · intro hreturned hflight
    refine progress hreach ?_ hflight
    rintro (⟨result, hresult⟩ | ⟨reason, hreason⟩)
    · exact hreturned result hresult
    · exact hreports.unrejected reason hreason
  · intro result hresult
    -- before the leaf has forked there are no branches
    have hleaf : S.root = none → (∀ p how, S.endOf p ≠ some how) ∧ ∀ p level,
        S.levelAt p ≠ some level := by
      intro hnone
      have hempty := hkept.tree.no_branch hnone
      refine ⟨fun p how hend => ?_, fun p level hlevel => ?_⟩
      · obtain ⟨b, hget, -⟩ := endOf_eq_some.mp hend
        simp [hempty] at hget
      · cases p with
        | nil => exact absurd (hnone.symm.trans hlevel) (by simp)
        | cons j p => simp [levelAt, hempty] at hlevel
    have hnowhere : S.root = none →
        (∀ p chain, S.endOf p = some (.completed chain) → chain ∈ result.chains) ∧
        (∀ level, S.root = some level → result.errors = S.errors.map Prod.snd) ∧
        ∀ p level, S.levelAt p = some level → ∀ i < level.hints.length,
          Accounted S result (i :: p) := by
      intro hnone
      obtain ⟨hends, hlevels⟩ := hleaf hnone
      exact ⟨fun p chain hend => absurd hend (hends p _),
        fun level hlevel => absurd (hnone.symm.trans hlevel) (by simp),
        fun p level hlevel => absurd hlevel (hlevels p level)⟩
    cases returned_of_reach hreach hresult with
    | overBudget hnone _ _ => exact hnowhere hnone
    | leaf hnone _ _ => exact hnowhere hnone
    | @walked T hT hbuilt hroot hbranches herrors heq =>
      have hresultErrors : result.errors = S.errors.map Prod.snd := by
        rw [heq, herrors]
      refine ⟨fun p chain hend => ?_, fun level hlevel => hresultErrors, ?_⟩
      · obtain ⟨b, hget, hphase⟩ := endOf_eq_some.mp hend
        have hfate := ((kept_of_reach hT).branch (hbranches ▸ hget)).phase
        rw [hphase] at hfate
        rw [heq]
        cases hfate with
        | completed _ _ _ _ _ hmem => exact hmem
      · exact fun p level hlevel i hi => hreports.accounted hreach hresult hresultErrors hlevel hi

/-! ## The condition -/

/-- The leaf's configuration breaks the discovery exactly when the step that follows rejects. -/
theorem leafFetched_rejected_iff (S : Resolution) (outcome : FetchOutcome) :
    (∃ reason, (S.leafFetched host anchors options leaf outcome).phase = .rejected reason) ↔
      LeafBreaks host anchors options leaf S.aborted outcome := by
  constructor
  · rintro ⟨reason, hrejected⟩
    have hstep : LeafStep host anchors options leaf S outcome
        (S.leafFetched host anchors options leaf outcome) := leafFetched_step S outcome
    generalize S.leafFetched host anchors options leaf outcome = S' at hstep hrejected
    cases hstep with
    | returns _ => simp [returnResult] at hrejected
    | rejects _ _ _ hbreaks _ => exact hbreaks
    | pruned _ => simp at hrejected
    | forks _ _ _ => simp at hrejected
  · intro hbreaks
    cases hbreaks with
    | rejected reason => exact ⟨reason, rfl⟩
    | @identity configuration decoded hdecode htext =>
      -- a claim without a text is not the identifier of the leaf
      have hnot : ¬ decoded.IsOf leaf := by
        rintro ⟨hiss, hsub⟩
        rcases htext with hnone | hnone
        · simp [hiss, Platform.text, Json.toText] at hnone
        · simp [hsub, Platform.text, Json.toText] at hnone
      rw [isOf_iff, Bool.not_eq_false] at hnot
      refine ⟨.typeError, ?_⟩
      simp only [leafFetched, hdecode]
      rw [if_pos hnot]
      rcases htext with hnone | hnone
      · simp [hnone]
      · cases host.text (decoded.payload.get? "iss") <;> simp [hnone]
    | @expiration configuration decoded hdecode hof hanchor hlacks hthrows =>
      have hnone : (authorityHints decoded.payload).filter (fun v => !lacksHints (some v)) = none := by
        cases hauthority : authorityHints decoded.payload with
        | none => rfl
        | some v =>
          rw [hauthority] at hlacks
          simp [Option.filter, hlacks]
      refine ⟨.typeError, ?_⟩
      simp only [leafFetched, hdecode, hnone, hanchor, if_true]
      rw [if_neg (by simp [isOf_iff.mp hof])]
      simp [unverifiedExpiration, hthrows]
    | @hints configuration decoded hints hdecode hof hauthority hlacks hlist hdepth haborted =>
      have hsome : (authorityHints decoded.payload).filter (fun v => !lacksHints (some v)) =
          some hints := by
        simp [hauthority, Option.filter, hlacks]
      refine ⟨.typeError, ?_⟩
      simp only [leafFetched, hdecode, hsome, buildChains, haborted]
      rw [if_neg (by simp [isOf_iff.mp hof]), if_neg (not_lt.mpr hdepth)]
      cases hints with
      | arr items => simp [Json.isArray] at hlist
      | _ => simp

section Computed

variable (host anchors options leaf)

def RootPhase.isRejected : RootPhase → Bool
  | .rejected _ => true
  | _ => false

def drops (b : Branch) : Bool :=
  match b.phase with
  | .answered (.statement configuration _ _) (.returned (.ok statement)) =>
    (anchors.get? b.issuer).isSome && !((b.level.chainSoFar ++ [statement, configuration]).mapM
      (decodeEntityStatement host.toPlatform)).isOk
  | _ => false

/-- The condition, as it is computed. -/
def isSane (S : Resolution) : Bool :=
  (match S.phase with
    | .answered outcome =>
      !(RootPhase.isRejected (S.leafFetched host anchors options leaf outcome).phase)
    | _ => true) &&
  S.branches.members.all fun e => !drops host anchors e.2

end Computed

theorem drops_eq_true (h : Drops host anchors b) : drops host anchors b = true := by
  obtain ⟨configuration, decoded, endpoint, statement, e, hphase, hanchor, hdecode⟩ := h
  simp [drops, hphase, hanchor, hdecode, Except.isOk, Except.toBool]

theorem sane_of_isSane (h : isSane host anchors options leaf S = true) :
    Sane host anchors options leaf S := by
  rw [isSane, Bool.and_eq_true] at h
  refine ⟨fun outcome hphase hbreaks => ?_, fun p b hget hdrops => ?_⟩
  · obtain ⟨reason, hreason⟩ := (leafFetched_rejected_iff S outcome).mpr hbreaks
    have hleaf := h.1
    simp [hphase, hreason, RootPhase.isRejected] at hleaf
  · have hall := List.all_eq_true.mp h.2 _ ((Dict.get?_eq_some_iff _ _ _).mp hget)
    simp [drops_eq_true hdrops] at hall

/-- A run by a schedule whose states are all sane. -/
theorem reach_guardedRun {answer : FetchCall → FetchOutcome} (moves : List Move)
    (hsane : ∀ n < moves.length, isSane host anchors options leaf
      (discoveryRun host anchors options leaf answer (moves.take n)) = true) :
    (guarded host anchors options leaf (Fixed answer)).Reach
      (discoveryRun host anchors options leaf answer moves) := by
  induction moves using List.reverseRecOn with
  | nil => exact .init ⟨false, rfl⟩
  | append_singleton moves move ih =>
    rw [List.length_append, List.length_singleton] at hsane
    have hreach := ih fun n hn => by
      have h := hsane n (by omega)
      rwa [List.take_append_of_le_length (le_of_lt hn)] at h
    have hlast := hsane moves.length (by omega)
    rw [List.take_left] at hlast
    rw [discoveryRun_concat]
    rcases Move.apply_cases (discoveryRun host anchors options leaf answer moves) move with h | h
    · rw [h]
      exact hreach
    · exact hreach.step ⟨sane_of_isSane hlast, h⟩

/-! ## Runs -/

/-- The leaf under the anchor keeps to the condition, and its result has its chain and no error. -/
theorem hintedRun_withstands : ∃ result, hintedRun.phase = .returned result ∧
    result.chains.length = 1 ∧ result.errors = hintedRun.errors.map Prod.snd ∧
    Accounted hintedRun result [0] := by
  have hreach : (guarded
      (servedHost (leafClaims [("authority_hints", .arr [.str "https://ta.example"])])) servedAnchors {}
      "https://leaf.example" (Fixed served)).Reach hintedRun :=
    reach_guardedRun hintedMoves (by decide +kernel)
  have hphase : hintedRun.phase = .returned { errors := [], chains :=
      [{ statements := ["leaf", "statement", "anchor"], entityId := "https://leaf.example"
         trustAnchorId := "https://ta.example", expiresAt := some 2000 }] } := by decide +kernel
  obtain ⟨-, -, -, hreturns⟩ := discovery_withstands hreach
  obtain ⟨-, herrors, haccounted⟩ := hreturns _ hphase
  have hroot : (hintedRun.levelAt []).isSome = true ∧
      ((hintedRun.levelAt []).map fun level => level.hints.length) = some 1 := by decide +kernel
  obtain ⟨level, hlevel⟩ := Option.isSome_iff_exists.mp hroot.1
  refine ⟨_, hphase, rfl, herrors level hlevel, haccounted [] level hlevel 0 ?_⟩
  have hlength := hroot.2
  rw [hlevel] at hlength
  simp only [Option.map_some, Option.some.injEq] at hlength
  omega

/-- The hints of the leaf are a string. -/
def brokenHost : ResolutionHost :=
  servedHost (leafClaims [("authority_hints", .str "https://ta.example")])

/-- The federation above, with a statement that is no JWT. -/
def garbled : FetchCall → FetchOutcome
  | .subordinateStatement _ _ _ => .returned (.ok "garbage")
  | call => served call

/-- The string rejects the whole discovery. The statement drops a chain, and nothing reports it. -/
theorem discovery_broken :
    (∃ S, (resolution brokenHost servedAnchors {} "https://leaf.example" (Fixed served)).Reach S ∧
      S.phase = .rejected .typeError) ∧
    ∃ S result, (resolution
        (servedHost (leafClaims [("authority_hints", .arr [.str "https://ta.example"])]))
        servedAnchors {} "https://leaf.example" (Fixed garbled)).Reach S ∧
      S.phase = .returned result ∧ S.endOf [0] = some .dropped ∧ result.errors = [] := by
  refine ⟨⟨discoveryRun brokenHost servedAnchors {} "https://leaf.example" served
    [.root, .root, .root], reach_discoveryRun _, by decide +kernel⟩, ?_⟩
  exact ⟨discoveryRun _ _ _ _ _ hintedMoves, { chains := [], errors := [] }, reach_discoveryRun _,
    by decide +kernel, by decide +kernel, rfl⟩

end Resolution

end OidFed
