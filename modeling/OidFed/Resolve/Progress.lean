import OidFed.Resolve.Slots

/-!
# A discovery comes to an end

* `effort`: what is left to do at most, a number that every step makes smaller (`effort_step`).
  `run_length_le`: so no run is longer than the limits allow.
* `Finished`, `InFlight`, `progress`: while no fetch is in flight there is a step, unless the result
  is there. `Finished.all_ended`: then every branch has ended.
* `Awaits`, `own_progress`: a branch whose own fetches have settled goes on by a step of its own,
  whatever the other branches wait for.
-/

namespace OidFed

open Js ForkJoin

namespace Resolution

/-- What is left to do after the outcome of a fetch: a statement may fork as many branches as there
are hints. -/
def Work.weight (options : ResolutionOptions) : Work → Nat
  | .configuration => 1
  | .statement _ _ _ => options.maxAuthorityHints + 2

def BranchPhase.weight (options : ResolutionOptions) : BranchPhase → Nat
  | .entering => 1
  | .waiting work => Work.weight options work + 2
  | .fetching work => Work.weight options work + 1
  | .answered work _ => Work.weight options work
  | .recursing _ => 1
  | .ended _ => 0

def RootPhase.weight (options : ResolutionOptions) : RootPhase → Nat
  | .start => options.maxAuthorityHints + 5
  | .fetching => options.maxAuthorityHints + 4
  | .answered _ => options.maxAuthorityHints + 3
  | .building => 2
  | .built => 1
  | .returned _ => 0
  | .rejected _ => 0

def weight (options : ResolutionOptions) (b : Branch) : Nat := BranchPhase.weight options b.phase

/-- What is left to do at most. Each fetch in the budget may become one more call. -/
def effort (options : ResolutionOptions) (S : Resolution) : Nat :=
  S.remaining * (options.maxAuthorityHints + 4) + total (weight options) S.branches +
    RootPhase.weight options S.phase + (!S.aborted).toNat

/-- The most steps that a discovery can take. -/
def maxSteps (options : ResolutionOptions) : Nat :=
  options.maxTotalFetches * (options.maxAuthorityHints + 4) + options.maxAuthorityHints + 6

variable {host : ResolutionHost} {anchors : TrustAnchorSet} {options : ResolutionOptions}
  {leaf : String} {answers : FetchCall → FetchOutcome → Prop} {S S' : Resolution} {p q : NodePath}
  {b : Branch}

/-! ## The length of runs -/

theorem one_le_weight (work : Work) : 1 ≤ Work.weight options work := by
  cases work with
  | configuration => exact le_refl 1
  | statement _ _ _ =>
    simp only [Work.weight]
    omega

theorem weight_le (work : Work) : Work.weight options work ≤ options.maxAuthorityHints + 2 := by
  cases work with
  | configuration =>
    simp only [Work.weight]
    omega
  | statement _ _ _ => exact le_refl _

theorem Running.one_le_weight (h : Running b) : 1 ≤ weight options b := by
  rw [weight]
  rcases h with h | ⟨work, outcome, h⟩
  · rw [h]
    exact le_refl 1
  · rw [h]
    exact Resolution.one_le_weight work

/-- The branches of a level have no more to do than a call that forks them. -/
theorem weight_children {level : Level} (h : level.hints.length ≤ options.maxAuthorityHints) :
    ((level.hints.map fun hint => ({ level, hint } : Branch)).map (weight options)).sum ≤
      options.maxAuthorityHints := by
  have hones : (level.hints.map fun hint => ({ level, hint } : Branch)).map (weight options) =
      List.replicate level.hints.length 1 := by
    rw [List.map_map, List.eq_replicate_iff]
    refine ⟨by simp, fun n hn => ?_⟩
    obtain ⟨hint, -, rfl⟩ := List.mem_map.mp hn
    rfl
  rw [hones, List.sum_replicate]
  simpa using h

theorem effort_branchStep (htree : Tree S) (hget : S.branches.get? p = some b)
    (h : BranchStep host anchors options leaf answers S p b S') :
    effort options S' < effort options S := by
  have hset : ∀ phase, total (weight options) (S.branches.set p { b with phase := phase }) +
      weight options b = total (weight options) S.branches + BranchPhase.weight options phase :=
    fun phase => total_set (weight options) hget _
  cases h with
  | @ends how es cs incomplete remaining _ hrun heq _ hremaining _ _ _ _ _ =>
    subst heq
    have htotal := hset (.ended how)
    have hone : 1 ≤ weight options b := hrun.one_le_weight
    have hle := Nat.mul_le_mul_right (options.maxAuthorityHints + 4) hremaining
    simp only [effort, BranchPhase.weight] at *
    omega
  | @waits work hrun _ hremaining _ =>
    have htotal := hset (.waiting work)
    have hone : 1 ≤ weight options b := hrun.one_le_weight
    have hle : Work.weight options work ≤ options.maxAuthorityHints + 2 := weight_le work
    -- the fetch that has been paid for is worth more than the call
    have hpaid : (S.remaining - 1) * (options.maxAuthorityHints + 4) + (options.maxAuthorityHints + 4) =
        S.remaining * (options.maxAuthorityHints + 4) := by
      rw [← Nat.succ_mul, Nat.succ_eq_add_one, Nat.sub_add_cancel (Nat.pos_of_ne_zero hremaining)]
    simp only [effort, BranchPhase.weight] at *
    omega
  | @resumes work hwaiting _ _ =>
    have htotal := hset (.fetching work)
    rw [weight, hwaiting] at htotal
    simp only [effort, BranchPhase.weight] at *
    omega
  | refused hwaiting _ _ =>
    have htotal := hset (.ended (.rejected .aborted))
    rw [weight, hwaiting] at htotal
    simp only [effort, BranchPhase.weight] at *
    omega
  | rejects hwaiting _ _ =>
    have htotal := hset (.ended (.rejected .aborted))
    rw [weight, hwaiting] at htotal
    simp only [effort, BranchPhase.weight] at *
    omega
  | @settles work outcome hfetching _ =>
    have htotal := hset (.answered work outcome)
    rw [weight, hfetching] at htotal
    simp only [effort, BranchPhase.weight] at *
    omega
  | @forks _ _ _ _ level es incomplete _ hanswered heq _ hrecurses =>
    subst heq
    have hforks : Forks S p b level { S with
        errors := S.errors ++ es.map (p, ·)
        incomplete := incomplete
        branches := (fork S.branches p (level.hints.map fun hint => { level, hint })).set p
          { b with phase := .recursing level } } :=
      ⟨hget, active_of_phase hanswered (by simp), rfl, rfl, by rw [hanswered]; rfl⟩
    have htotal := hforks.total htree (weight options)
    have hchildren := weight_children hrecurses.holds.hints
    rw [show weight options b = options.maxAuthorityHints + 2 by rw [weight, hanswered]; rfl,
      show weight options { b with phase := .recursing level } = 1 from rfl] at htotal
    simp only [effort] at *
    omega
  | @joins level hrecursing _ =>
    have htotal := hset (.ended (.recursed (some level)))
    rw [weight, hrecursing] at htotal
    simp only [effort, BranchPhase.weight, joinBranches, setPhase, collectRejections] at *
    omega

theorem effort_rootStep (htree : Tree S)
    (hroot : RootHolds host anchors options leaf answers S S.phase)
    (h : RootStep host anchors options leaf answers S S') : effort options S' < effort options S := by
  cases h with
  | begins hstart _ _ =>
    simp only [effort, returnResult, hstart, RootPhase.weight]
    omega
  | fetches hstart _ =>
    have hle := Nat.mul_le_mul_right (options.maxAuthorityHints + 4) (Nat.sub_le S.remaining 1)
    simp only [effort, hstart, RootPhase.weight]
    omega
  | settles hfetching _ =>
    simp only [effort, hfetching, RootPhase.weight]
    omega
  | @fetched outcome hanswered =>
    have hnone := hroot
    rw [hanswered] at hnone
    have hstep : LeafStep host anchors options leaf S outcome
        (S.leafFetched host anchors options leaf outcome) := leafFetched_step S outcome
    generalize S.leafFetched host anchors options leaf outcome = S' at hstep
    cases hstep with
    | returns _ =>
      simp only [effort, returnResult, hanswered, RootPhase.weight]
      omega
    | rejects es incomplete reason _ heq =>
      subst heq
      simp only [effort, hanswered, RootPhase.weight]
      omega
    | pruned es =>
      simp only [effort, hanswered, RootPhase.weight]
      omega
    | @forks es incomplete level _ hstarts =>
      have hlevel : level.hints.length ≤ options.maxAuthorityHints := by
        obtain ⟨configuration, decoded, items, -, -, -, -, rfl⟩ := hstarts.starts
        exact keptHints_length
      -- the branches are new, and all of them weigh less than the fork of the leaf
      have hfork := total_fork (weight options) (p := []) (fun i => htree.no_branch hnone.1 [i])
        (level.hints.map fun hint => ({ level, hint } : Branch))
      have hchildren := weight_children hlevel
      simp only [effort, hanswered, RootPhase.weight]
      omega
  | joins hbuilding _ _ =>
    simp only [effort, joinLeaf, collectRejections, hbuilding, RootPhase.weight]
    omega
  | finishes hbuilt =>
    simp only [effort, finish, returnResult, hbuilt, RootPhase.weight]
    omega
  | aborts haborted =>
    simp only [effort, haborted, Bool.not_true, Bool.not_false, Bool.toNat_true, Bool.toNat_false]
    omega

theorem effort_step (h : (resolution host anchors options leaf answers).Reach S)
    (hstep : Step host anchors options leaf answers S S') :
    effort options S' < effort options S := by
  have hkept := kept_of_reach h
  rcases step_cases hstep fun _ _ hget => hkept.branch hget with hroot | ⟨p, b, hget, hbranch⟩
  · exact effort_rootStep hkept.tree hkept.phase hroot
  · exact effort_branchStep hkept.tree hget hbranch

theorem effort_le (h : (resolution host anchors options leaf answers).Reach S) :
    effort options S ≤ maxSteps options := by
  have hall := System.Reach.invariant (S := resolution host anchors options leaf answers)
    (I := fun T : Resolution => (resolution host anchors options leaf answers).Reach T ∧
      effort options T ≤ maxSteps options) (fun T hinit => ?_) (fun T T' hI hstep => ?_) h
  · exact hall.2
  · refine ⟨.init hinit, ?_⟩
    obtain ⟨aborted, rfl⟩ := hinit
    have haborted : (!aborted).toNat ≤ 1 := Bool.toNat_le _
    have htotal : total (weight options) (.empty : Dict NodePath Branch) = 0 := rfl
    simp only [effort, maxSteps, RootPhase.weight, htotal]
    omega
  · exact ⟨hI.1.step hstep, (le_of_lt (effort_step hI.1 hstep)).trans hI.2⟩

/-- A run from a reachable state is no longer than the limits allow. -/
theorem run_length_le {n : Nat} (h : (resolution host anchors options leaf answers).Reach S)
    (hsteps : (resolution host anchors options leaf answers).Steps S n S') :
    n ≤ maxSteps options := by
  have hle : n + effort options S' ≤ effort options S :=
    System.Steps.length_le (S := resolution host anchors options leaf answers)
      (fun _ _ hreach hstep => effort_step hreach hstep) h hsteps
  have hmax := effort_le h
  omega

/-! ## Progress -/

/-- `resolveTrustChains` has returned or has been rejected. -/
def Finished (S : Resolution) : Prop :=
  (∃ result, S.phase = .returned result) ∨ ∃ reason, S.phase = .rejected reason

/-- A fetch has been started and has not settled. -/
def InFlight (S : Resolution) : Prop :=
  S.phase = .fetching ∨ ∃ p b work, S.branches.get? p = some b ∧ b.phase = .fetching work

/-- While a call of the limiter waits and nothing is fetched, a call has a slot. -/
theorem Slots.exists_granted (h : Slots options S) (hflight : ¬ InFlight S)
    (hpending : S.limiter.Pending p) : ∃ q, q ∈ S.limiter.granted := by
  rcases hpending with hqueue | hgranted
  · rcases h.sound.progress (List.ne_nil_of_mem hqueue) with hgranted | hrunning
    · exact List.exists_mem_of_ne_nil _ hgranted
    · obtain ⟨q, hq⟩ := List.exists_mem_of_ne_nil _ hrunning
      obtain ⟨work, hwork⟩ := (h.slot q).running.mp hq
      obtain ⟨b, hget, hphase⟩ := phaseAt_eq_some.mp hwork
      exact absurd (.inr ⟨q, b, work, hget, hphase⟩) hflight
  · exact ⟨p, hgranted⟩

theorem endOf_isSome (hget : S.branches.get? q = some b) (hended : ¬ Active b) :
    (S.endOf q).isSome = true := by
  rw [Active, not_forall] at hended
  obtain ⟨how, hhow⟩ := hended
  exact Option.isSome_iff_exists.mpr ⟨how, endOf_eq_some.mpr ⟨b, hget, not_not.mp hhow⟩⟩

/-- A branch that has not ended and has no such branches below it can go on, or another one can. -/
theorem exists_advance (hkept : Kept host anchors options leaf answers S)
    (hslots : Slots options S) (hflight : ¬ InFlight S) (hget : S.branches.get? p = some b)
    (hactive : Active b)
    (hdeepest : ∀ i c, S.branches.get? (i :: p) = some c → ¬ Active c) :
    ∃ S', Advance host anchors options leaf answers S S' := by
  cases hphase : b.phase with
  | entering => exact ⟨_, .enterHint hget hphase⟩
  | answered work outcome => exact ⟨_, .continueBranch hget hphase⟩
  | ended how => exact absurd hphase (hactive how)
  | fetching work => exact absurd (.inr ⟨p, b, work, hget, hphase⟩) hflight
  | waiting work =>
    have hwaiting : S.phaseAt p = some (.waiting work) := by
      rw [phaseAt_of_get? hget, hphase]
    by_cases hpending : S.limiter.Pending p
    · obtain ⟨q, hq⟩ := hslots.exists_granted hflight hpending
      obtain ⟨work', hwork'⟩ := (hslots.slot q).pending (.inr hq)
      obtain ⟨c, hc, hcphase⟩ := phaseAt_eq_some.mp hwork'
      exact ⟨_, .resume hc hcphase hq⟩
    · rcases (hslots.slot p).served work hwaiting with h | haborted
      · exact absurd h hpending
      · exact ⟨_, .reject hget hphase haborted hpending⟩
  | recursing level =>
    refine ⟨_, .joinBranches hget hphase fun i hi => ?_⟩
    have hlevel : S.levelAt p = some level := by
      rw [levelAt_of_get? hkept.tree.nil hget, hphase]
      rfl
    obtain ⟨c, hc⟩ := hkept.tree.child hlevel hi
    exact endOf_isSome hc (hdeepest i c hc)

/-- A fetch of the branch at `p`, or of a branch below it, has been asked for and has not settled. -/
def Awaits (S : Resolution) (p : NodePath) : Prop :=
  ∃ q c work, p <:+ q ∧ S.branches.get? q = some c ∧
    (c.phase = .waiting work ∨ c.phase = .fetching work)

/-- A step of a branch takes it to another place. -/
theorem BranchStep.phaseAt_ne (h : BranchStep host anchors options leaf answers S p b S')
    (hget : S.branches.get? p = some b) : S'.phaseAt p ≠ S.phaseAt p := by
  -- each step writes the branch that takes it
  have hmoved : ∀ {branches : Dict NodePath Branch} {phase : BranchPhase},
      S'.branches = branches.set p { b with phase := phase } → phase ≠ b.phase →
        S'.phaseAt p ≠ S.phaseAt p := by
    intro branches phase hset hne heq
    rw [phaseAt_set hset, phaseAt_of_get? hget] at heq
    exact hne (Option.some.inj heq)
  have hrunning : ∀ {phase : BranchPhase}, Running b → phase ≠ .entering →
      (∀ work outcome, phase ≠ .answered work outcome) → phase ≠ b.phase := by
    rintro phase (hphase | ⟨work, outcome, hphase⟩) hentering hanswered <;> rw [hphase]
    · exact hentering
    · exact hanswered work outcome
  cases h with
  | ends es cs hrun heq => exact hmoved (by rw [heq]) (hrunning hrun (by simp) (by simp))
  | waits hrun => exact hmoved rfl (hrunning hrun (by simp) (by simp))
  | resumes hwaiting => exact hmoved rfl (by simp [hwaiting])
  | refused hwaiting => exact hmoved rfl (by simp [hwaiting])
  | rejects hwaiting => exact hmoved rfl (by simp [hwaiting])
  | settles hfetching => exact hmoved rfl (by simp [hfetching])
  | forks es hanswered heq => exact hmoved (by rw [heq]) (by simp [hanswered])
  | joins hrecursing => exact hmoved rfl (by simp [hrecursing])

/-- Once the fetches of a branch and of those below it have settled, it has ended or one of them takes
a step: it waits for no other branch. -/
theorem own_progress (h : (resolution host anchors options leaf answers).Reach S)
    (hget : S.branches.get? p = some b) (hawaits : ¬ Awaits S p) :
    (∃ how, b.phase = .ended how) ∨ ∃ q S', p <:+ q ∧
      Advance host anchors options leaf answers S S' ∧ S'.phaseAt q ≠ S.phaseAt q := by
  by_contra hstuck
  obtain ⟨hactive, hnone⟩ := not_or.mp hstuck
  have hkept := kept_of_reach h
  -- the deepest branch of the subtree that has not ended waits for none below it
  obtain ⟨q, c, hc, ⟨hbelow, hcactive⟩, hdeepest⟩ := exists_deepest
    (P := fun q c => p <:+ q ∧ Active c)
    ⟨p, b, hget, List.suffix_refl p, fun how hhow => hactive ⟨how, hhow⟩⟩
  have hended : ∀ i d, S.branches.get? (i :: q) = some d → ¬ Active d := fun i d hd hdactive =>
    hdeepest i d hd ⟨hbelow.trans (List.suffix_cons i q), hdactive⟩
  have hmoves : ∀ {S'}, Advance host anchors options leaf answers S S' →
      BranchStep host anchors options leaf answers S q c S' → False := fun hadvance hstep =>
    hnone ⟨q, _, hbelow, hadvance, hstep.phaseAt_ne hc⟩
  cases hphase : c.phase with
  | entering => exact hmoves (.enterHint hc hphase) (enterHint_step hphase)
  | answered work outcome =>
    exact hmoves (.continueBranch hc hphase) (continueBranch_step hphase (hkept.branch hc))
  | ended how => exact hcactive how hphase
  | waiting work => exact hawaits ⟨q, c, work, hbelow, hc, .inl hphase⟩
  | fetching work => exact hawaits ⟨q, c, work, hbelow, hc, .inr hphase⟩
  | recursing level =>
    have hlevel : S.levelAt q = some level := by
      rw [levelAt_of_get? hkept.tree.nil hc, hphase]
      rfl
    have hsettled : S.AllSettled q level := fun i hi => by
      obtain ⟨d, hd⟩ := hkept.tree.child hlevel hi
      exact endOf_isSome hd (hended i d hd)
    exact hmoves (.joinBranches hc hphase hsettled) (.joins hphase hsettled)

/-- While no fetch is in flight and there is no result, there is a step. -/
theorem progress (h : (resolution host anchors options leaf answers).Reach S)
    (hfinished : ¬ Finished S) (hflight : ¬ InFlight S) :
    ∃ S', Advance host anchors options leaf answers S S' := by
  have hkept := kept_of_reach h
  have hslots := slots_of_reach h
  cases hphase : S.phase with
  | start => exact ⟨_, .begin hphase⟩
  | fetching => exact absurd (.inl hphase) hflight
  | answered outcome => exact ⟨_, .leafFetched hphase⟩
  | built => exact ⟨_, .finish hphase⟩
  | returned result => exact absurd (.inl ⟨result, hphase⟩) hfinished
  | rejected reason => exact absurd (.inr ⟨reason, hphase⟩) hfinished
  | building =>
    by_cases hactive : ∃ p b, S.branches.get? p = some b ∧ Active b
    · obtain ⟨p, b, hget, hb, hdeepest⟩ := exists_deepest (P := fun _ b => Active b) hactive
      exact exists_advance hkept hslots hflight hget hb hdeepest
    · -- all branches have ended, those of the leaf too
      have hroot := hkept.phase
      rw [hphase] at hroot
      obtain ⟨level, hlevel⟩ := Option.isSome_iff_exists.mp hroot
      refine ⟨_, .joinLeaf hphase hlevel fun i hi => ?_⟩
      obtain ⟨c, hc⟩ := hkept.tree.child (p := []) hlevel hi
      exact endOf_isSome hc fun hc' => hactive ⟨_, c, hc, hc'⟩

/-- With the result, all branches have ended. -/
theorem Finished.all_ended (h : (resolution host anchors options leaf answers).Reach S)
    (hfinished : Finished S) (hget : S.branches.get? p = some b) : ∃ how, b.phase = .ended how := by
  have hkept := kept_of_reach h
  have hroot := hkept.phase
  rcases hfinished with ⟨result, hresult⟩ | ⟨reason, hreason⟩
  · rw [hresult] at hroot
    exact hkept.tree.all_ended hroot hget
  · rw [hreason] at hroot
    simp [hkept.tree.no_branch hroot.1] at hget

end Resolution

end OidFed
