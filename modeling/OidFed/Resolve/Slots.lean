import OidFed.Resolve.Invariant

/-!
# The slots and the budget of a discovery

* `phaseAt`: where a branch is. `BranchShape.phaseAt_ne`: a step of one branch leaves the others.
* `Slots`: the branches that wait and those that fetch are those that the limiter knows of.
* `Spent`: every fetch is paid from the budget before it is started, and none is started too deep.
* `slots_of_reach`, `spent_of_reach`: both hold in every reachable state.
-/

namespace OidFed

open Js ForkJoin

namespace Resolution

def phaseAt (S : Resolution) (q : NodePath) : Option BranchPhase :=
  (S.branches.get? q).map Branch.phase

/-- What the limiter knows of a branch. -/
structure Slot (S : Resolution) (q : NodePath) : Prop where
  pending : S.limiter.Pending q → ∃ work, S.phaseAt q = some (.waiting work)
  running : q ∈ S.limiter.running ↔ ∃ work, S.phaseAt q = some (.fetching work)
  served : ∀ work, S.phaseAt q = some (.waiting work) → S.limiter.Pending q ∨ S.aborted = true

structure Slots (options : ResolutionOptions) (S : Resolution) : Prop where
  sound : S.limiter.Sound options.maxConcurrentFetches
  slot : ∀ q, Slot S q

/-- A branch that waits has paid for a fetch that is not started yet. -/
def reserved (b : Branch) : Nat :=
  match b.phase with
  | .waiting _ => 1
  | _ => 0

structure Spent (options : ResolutionOptions) (S : Resolution) : Prop where
  paid : S.started.length + total reserved S.branches + S.remaining ≤ options.maxTotalFetches
  depth : ∀ e ∈ S.started, e.1 ≤ options.maxChainDepth

variable {host : ResolutionHost} {anchors : TrustAnchorSet} {options : ResolutionOptions}
  {leaf : String} {answers : FetchCall → FetchOutcome → Prop} {S S' : Resolution} {p q : NodePath}
  {b : Branch}

/-! ## Where branches are -/

theorem phaseAt_eq_some {phase : BranchPhase} :
    S.phaseAt q = some phase ↔ ∃ b, S.branches.get? q = some b ∧ b.phase = phase := by
  rw [phaseAt, Option.map_eq_some_iff]

theorem phaseAt_of_get? (hget : S.branches.get? p = some b) : S.phaseAt p = some b.phase := by
  rw [phaseAt, hget, Option.map_some]

theorem phaseAt_set {branches : Dict NodePath Branch} {phase : BranchPhase}
    (h : S'.branches = branches.set p { b with phase := phase }) : S'.phaseAt p = some phase := by
  rw [phaseAt, h, Dict.get?_set_self, Option.map_some]

/-- A step of a branch leaves the others where they are, and the new ones enter. -/
theorem BranchShape.phaseAt_ne (h : BranchShape host anchors options leaf answers S p b S')
    (htree : Tree S) (hne : q ≠ p) {phase : BranchPhase} (hphase : phase ≠ .entering) :
    S'.phaseAt q = some phase ↔ S.phaseAt q = some phase := by
  cases h with
  | stays hstays _ _ => rw [phaseAt, hstays.get?_ne hne, phaseAt]
  | forks hforks _ =>
    rw [phaseAt_eq_some, phaseAt_eq_some]
    constructor
    · rintro ⟨c, hget, hc⟩
      rcases hforks.get?_some htree hget with ⟨rfl, -⟩ | ⟨i, hint, -, -, rfl⟩ | ⟨-, hold⟩
      · exact absurd rfl hne
      · exact absurd hc.symm hphase
      · exact ⟨c, hold, hc⟩
    · rintro ⟨c, hget, hc⟩
      exact ⟨c, hforks.get?_old htree hne hget, hc⟩

/-! ## Slots -/

theorem Slot.congr (h : Slot S q)
    (hphase : ∀ phase, phase ≠ .entering → (S'.phaseAt q = some phase ↔ S.phaseAt q = some phase))
    (hpending : S'.limiter.Pending q ↔ S.limiter.Pending q)
    (hrunning : q ∈ S'.limiter.running ↔ q ∈ S.limiter.running) (haborted : S'.aborted = S.aborted) :
    Slot S' q := by
  have hfetching : ∀ work, S'.phaseAt q = some (.fetching work) ↔ S.phaseAt q = some (.fetching work) :=
    fun work => hphase _ (by simp)
  refine ⟨fun hp => ?_, ?_, fun work hwaiting => ?_⟩
  · obtain ⟨work, hwork⟩ := h.pending (hpending.mp hp)
    exact ⟨work, (hphase _ (by simp)).mpr hwork⟩
  · simp only [hrunning, hfetching]
    exact h.running
  · rw [hpending, haborted]
    exact h.served work ((hphase _ (by simp)).mp hwaiting)

/-- A branch that does not wait has no call in the limiter's queue or with a slot. -/
theorem Slot.not_pending (h : Slot S q) {phase : BranchPhase} (hphase : S.phaseAt q = some phase)
    (hne : ∀ work, phase ≠ .waiting work) : ¬ S.limiter.Pending q := by
  intro hpending
  obtain ⟨work, hwork⟩ := h.pending hpending
  exact hne work (Option.some.inj (hphase.symm.trans hwork))

theorem Slot.not_running (h : Slot S q) {phase : BranchPhase} (hphase : S.phaseAt q = some phase)
    (hne : ∀ work, phase ≠ .fetching work) : q ∉ S.limiter.running := by
  intro hrunning
  obtain ⟨work, hwork⟩ := h.running.mp hrunning
  exact hne work (Option.some.inj (hphase.symm.trans hwork))

/-- A branch that neither waits nor fetches. -/
theorem slot_of_apart {phase : BranchPhase} (hphase : S.phaseAt q = some phase)
    (hwaiting : ∀ work, phase ≠ .waiting work) (hfetching : ∀ work, phase ≠ .fetching work)
    (hpending : ¬ S.limiter.Pending q) (hrunning : q ∉ S.limiter.running) : Slot S q := by
  refine ⟨fun h => absurd h hpending, ⟨fun h => absurd h hrunning, ?_⟩, ?_⟩
  · rintro ⟨work, hwork⟩
    exact absurd (Option.some.inj (hphase.symm.trans hwork)) (hfetching work)
  · intro work hwork
    exact absurd (Option.some.inj (hphase.symm.trans hwork)) (hwaiting work)

theorem Running.ne_waiting (h : Running b) (work : Work) : b.phase ≠ .waiting work := by
  rcases h with h | ⟨work, outcome, h⟩ <;> rw [h] <;> simp

theorem Running.ne_fetching (h : Running b) (work : Work) : b.phase ≠ .fetching work := by
  rcases h with h | ⟨work, outcome, h⟩ <;> rw [h] <;> simp

theorem Slots.branchStep (hslots : Slots options S) (htree : Tree S)
    (hget : S.branches.get? p = some b) (h : BranchStep host anchors options leaf answers S p b S')
    (hshape : BranchShape host anchors options leaf answers S p b S') : Slots options S' := by
  have hself := hslots.slot p
  have hphase : S.phaseAt p = some b.phase := phaseAt_of_get? hget
  -- the step is one of `p`, so the slots of the other branches are to be compared only
  have hothers : S'.aborted = S.aborted →
      (∀ q, q ≠ p → (S'.limiter.Pending q ↔ S.limiter.Pending q)) →
      (∀ q, q ≠ p → (q ∈ S'.limiter.running ↔ q ∈ S.limiter.running)) → Slot S' p →
        ∀ q, Slot S' q := by
    intro haborted hpending hrunning hp q
    by_cases hq : q = p
    · exact hq ▸ hp
    · exact (hslots.slot q).congr (fun phase hne => hshape.phaseAt_ne htree hq hne) (hpending q hq)
        (hrunning q hq) haborted
  cases h with
  | ends es cs hrun heq _ _ _ _ _ _ _ =>
    subst heq
    refine ⟨hslots.sound, hothers rfl (fun _ _ => .rfl) (fun _ _ => .rfl) ?_⟩
    exact slot_of_apart (phaseAt_set rfl) (by simp) (by simp)
      (hself.not_pending hphase hrun.ne_waiting) (hself.not_running hphase hrun.ne_fetching)
  | @waits work hrun haborted _ _ =>
    -- a branch that waits has asked for one slot only
    have hnew : p ∉ S.limiter.queue ++ (S.limiter.granted ++ S.limiter.running) := by
      have hpending := hself.not_pending hphase hrun.ne_waiting
      have hrunning := hself.not_running hphase hrun.ne_fetching
      rw [Limiter.Pending, not_or] at hpending
      simp [hpending, hrunning]
    refine ⟨hslots.sound.acquire hnew, hothers rfl (fun q hq => ?_) (fun q _ => ?_) ⟨?_, ?_, ?_⟩⟩
    · simp [Limiter.pending_acquire, hq]
    · simp [Limiter.running_acquire]
    · exact fun _ => ⟨work, phaseAt_set rfl⟩
    · rw [Limiter.running_acquire, phaseAt_set rfl]
      simp [hself.not_running hphase hrun.ne_fetching]
    · exact fun _ _ => .inl (Limiter.pending_acquire.mpr (.inr rfl))
  | @resumes work hwaiting hgranted haborted =>
    refine ⟨hslots.sound.resume hgranted, hothers rfl (fun q hq => ?_) (fun q hq => ?_) ⟨?_, ?_, ?_⟩⟩
    · simp [hslots.sound.pending_resume hgranted, hq]
    · simp [Limiter.mem_running_resume, hq]
    · exact fun hpending => absurd rfl ((hslots.sound.pending_resume hgranted).mp hpending).2
    · exact iff_of_true (Limiter.mem_running_resume.mpr (.inr rfl)) ⟨work, phaseAt_set rfl⟩
    · intro work' hwork
      rw [phaseAt_set rfl] at hwork
      simp at hwork
  | refused hwaiting hgranted haborted =>
    refine ⟨hslots.sound.refuse hgranted, hothers rfl (fun q hq => ?_) (fun q _ => ?_) ?_⟩
    · simp [hslots.sound.pending_refuse hgranted, hq]
    · simp [Limiter.running_refuse]
    · refine slot_of_apart (phaseAt_set rfl) (by simp) (by simp) (fun hpending => ?_) ?_
      · exact ((hslots.sound.pending_refuse hgranted).mp hpending).2 rfl
      · rw [Limiter.running_refuse]
        exact hself.not_running hphase (by simp [hwaiting])
  | rejects hwaiting hpending haborted =>
    refine ⟨hslots.sound, hothers rfl (fun _ _ => .rfl) (fun _ _ => .rfl) ?_⟩
    exact slot_of_apart (phaseAt_set rfl) (by simp) (by simp) hpending
      (hself.not_running hphase (by simp [hwaiting]))
  | @settles work outcome hfetching _ =>
    have hrunning : p ∈ S.limiter.running := by
      refine hself.running.mpr ⟨work, ?_⟩
      rw [hphase, hfetching]
    refine ⟨hslots.sound.finish hrunning, hothers rfl (fun q _ => ?_) (fun q hq => ?_) ?_⟩
    · simp [Limiter.pending_finish]
    · simp [hslots.sound.mem_running_finish, hq]
    · refine slot_of_apart (phaseAt_set rfl) (by simp) (by simp) ?_ (fun hp => ?_)
      · rw [Limiter.pending_finish]
        exact hself.not_pending hphase (by simp [hfetching])
      · exact (hslots.sound.mem_running_finish.mp hp).2 rfl
  | forks es hanswered heq _ _ =>
    subst heq
    refine ⟨hslots.sound, hothers rfl (fun _ _ => .rfl) (fun _ _ => .rfl) ?_⟩
    exact slot_of_apart (phaseAt_set rfl) (by simp) (by simp)
      (hself.not_pending hphase (by simp [hanswered]))
      (hself.not_running hphase (by simp [hanswered]))
  | @joins level hrecursing _ =>
    refine ⟨hslots.sound, hothers rfl (fun _ _ => .rfl) (fun _ _ => .rfl) ?_⟩
    have hended : (S.joinBranches host p b level).phaseAt p = some (.ended (.recursed (some level))) :=
      phaseAt_set rfl
    exact slot_of_apart hended (by simp) (by simp) (hself.not_pending hphase (by simp [hrecursing]))
      (hself.not_running hphase (by simp [hrecursing]))

/-- A step outside of the branches leaves the limiter, or aborts it. -/
theorem Slots.rootStep (hslots : Slots options S) (htree : Tree S)
    (hroot : RootHolds host anchors options leaf answers S S.phase)
    (h : RootStep host anchors options leaf answers S S') : Slots options S' := by
  have hsame : ∀ {T : Resolution}, T.branches = S.branches → T.limiter = S.limiter →
      T.aborted = S.aborted → Slots options T := by
    intro T hbranches hlimiter haborted
    refine ⟨hlimiter ▸ hslots.sound, fun q => (hslots.slot q).congr (fun _ _ => ?_) ?_ ?_ haborted⟩
    · rw [phaseAt, hbranches, phaseAt]
    · rw [hlimiter]
    · rw [hlimiter]
  cases h with
  | begins _ _ _ => exact hsame rfl rfl rfl
  | fetches _ _ => exact hsame rfl rfl rfl
  | settles _ _ => exact hsame rfl rfl rfl
  | @fetched outcome hanswered =>
    rw [hanswered] at hroot
    have hstep : LeafStep host anchors options leaf S outcome
        (S.leafFetched host anchors options leaf outcome) := leafFetched_step S outcome
    generalize S.leafFetched host anchors options leaf outcome = S' at hstep
    cases hstep with
    | returns _ => exact hsame rfl rfl rfl
    | rejects es incomplete reason _ heq =>
      subst heq
      exact hsame rfl rfl rfl
    | pruned es => exact hsame rfl rfl rfl
    | @forks es incomplete level _ _ =>
      have hempty := htree.no_branch hroot.1
      refine ⟨hslots.sound, fun q => (hslots.slot q).congr (fun phase hne => ?_) .rfl .rfl rfl⟩
      -- the new branches enter, and there are no others
      rw [phaseAt_eq_some, phaseAt_eq_some]
      constructor
      · rintro ⟨b, hget, hb⟩
        rcases get?_fork_eq_some hget with ⟨i, -, hchild⟩ | hold
        · rw [List.getElem?_map, Option.map_eq_some_iff] at hchild
          obtain ⟨hint, -, rfl⟩ := hchild
          exact absurd hb.symm hne
        · exact ⟨b, hold, hb⟩
      · rintro ⟨b, hget, -⟩
        simp [hempty] at hget
  | joins _ _ _ => exact hsame rfl rfl rfl
  | finishes _ => exact hsame rfl rfl rfl
  | aborts _ =>
    refine ⟨hslots.sound.abort, fun q => ⟨fun hpending => ?_, (hslots.slot q).running, ?_⟩⟩
    · refine (hslots.slot q).pending (.inr ?_)
      simpa [Limiter.Pending, Limiter.abort] using hpending
    · exact fun _ _ => .inr rfl

theorem slots_init (aborted : Bool) :
    Slots options { remaining := options.maxTotalFetches, aborted := aborted } := by
  refine ⟨Limiter.sound_init, fun q => ⟨fun h => ?_, ?_, fun work h => ?_⟩⟩
  · simp [Limiter.Pending] at h
  · simp [phaseAt]
  · simp [phaseAt] at h

/-! ## The budget -/

/-- How a weight of the branches changes when one of them forks. -/
theorem Forks.total {level : Level} (h : Forks S p b level S') (htree : Tree S) (f : Branch → Nat) :
    total f S'.branches + f b = total f S.branches +
      ((level.hints.map fun hint => ({ level, hint } : Branch)).map f).sum +
        f { b with phase := .recursing level } := by
  have hfork := total_fork f (h.no_child htree)
    (level.hints.map fun hint => ({ level, hint } : Branch))
  have hold : (fork S.branches p (level.hints.map fun hint => ({ level, hint } : Branch))).get? p =
      some b := by
    rw [get?_fork_of_ne (fun i hi => ne_child i p hi.symm), h.get]
  have hset := total_set f hold { b with phase := .recursing level }
  rw [h.branches]
  omega

theorem reserved_of_apart (h : ∀ work, b.phase ≠ .waiting work) : reserved b = 0 := by
  unfold reserved
  split
  · rename_i work hwork
    exact absurd hwork (h work)
  · rfl

theorem reserved_of_waiting {work : Work} (h : b.phase = .waiting work) : reserved b = 1 := by
  rw [reserved, h]

/-- New branches have paid for nothing. -/
theorem reserved_children (level : Level) :
    ((level.hints.map fun hint => ({ level, hint } : Branch)).map reserved).sum = 0 := by
  rw [List.map_map]
  exact List.sum_eq_zero fun n hn => by
    obtain ⟨hint, -, rfl⟩ := List.mem_map.mp hn
    rfl

theorem Spent.branchStep (hspent : Spent options S) (htree : Tree S)
    (hget : S.branches.get? p = some b) (hlevel : LevelHolds host options leaf answers b.level)
    (h : BranchStep host anchors options leaf answers S p b S') : Spent options S' := by
  have hpaid := hspent.paid
  -- what is reserved changes by what the branch had and has
  have hset : ∀ phase, total reserved (S.branches.set p { b with phase := phase }) + reserved b =
      total reserved S.branches + reserved { b with phase := phase } :=
    fun phase => total_set reserved hget _
  cases h with
  | @ends how es cs incomplete remaining _ hrun heq _ hremaining _ _ _ _ _ =>
    subst heq
    have htotal := hset (.ended how)
    rw [reserved_of_apart hrun.ne_waiting, reserved_of_apart (by simp)] at htotal
    exact ⟨by simp only; omega, hspent.depth⟩
  | @waits work hrun _ hremaining _ =>
    have htotal := hset (.waiting work)
    rw [reserved_of_apart hrun.ne_waiting, reserved_of_waiting rfl] at htotal
    exact ⟨by simp only; omega, hspent.depth⟩
  | @resumes work hwaiting _ _ =>
    -- the fetch is paid from what was reserved for it
    have htotal := hset (.fetching work)
    rw [reserved_of_waiting hwaiting, reserved_of_apart (by simp)] at htotal
    refine ⟨?_, fun e he => ?_⟩
    · simp only [List.length_append, List.length_singleton]
      omega
    · rcases List.mem_append.mp he with hold | hnew
      · exact hspent.depth e hold
      · obtain rfl := List.mem_singleton.mp hnew
        exact hlevel.bounded
  | refused hwaiting _ _ =>
    have htotal := hset (.ended (.rejected .aborted))
    rw [reserved_of_waiting hwaiting, reserved_of_apart (by simp)] at htotal
    exact ⟨by simp only; omega, hspent.depth⟩
  | rejects hwaiting _ _ =>
    have htotal := hset (.ended (.rejected .aborted))
    rw [reserved_of_waiting hwaiting, reserved_of_apart (by simp)] at htotal
    exact ⟨by simp only; omega, hspent.depth⟩
  | @settles work outcome hfetching _ =>
    have htotal := hset (.answered work outcome)
    rw [reserved_of_apart (by simp [hfetching]), reserved_of_apart (by simp)] at htotal
    exact ⟨by simp only; omega, hspent.depth⟩
  | @forks _ _ _ _ level es incomplete _ hanswered heq _ _ =>
    subst heq
    have hforks : Forks S p b level { S with
        errors := S.errors ++ es.map (p, ·)
        incomplete := incomplete
        branches := (fork S.branches p (level.hints.map fun hint => { level, hint })).set p
          { b with phase := .recursing level } } :=
      ⟨hget, active_of_phase hanswered (by simp), rfl, rfl, by rw [hanswered]; rfl⟩
    have htotal := hforks.total htree reserved
    rw [reserved_children, reserved_of_apart (by simp [hanswered]), reserved_of_apart (by simp)]
      at htotal
    exact ⟨by simp only at htotal ⊢; omega, hspent.depth⟩
  | @joins level hrecursing _ =>
    have htotal := hset (.ended (.recursed (some level)))
    rw [reserved_of_apart (by simp [hrecursing]), reserved_of_apart (by simp)] at htotal
    refine ⟨?_, hspent.depth⟩
    simp only [joinBranches, setPhase, collectRejections]
    omega

theorem Spent.rootStep (hspent : Spent options S) (htree : Tree S)
    (hroot : RootHolds host anchors options leaf answers S S.phase)
    (h : RootStep host anchors options leaf answers S S') : Spent options S' := by
  have hpaid := hspent.paid
  cases h with
  | begins _ _ _ => exact ⟨hpaid, hspent.depth⟩
  | fetches _ hremaining =>
    refine ⟨?_, fun e he => ?_⟩
    · simp only [List.length_append, List.length_singleton]
      omega
    · rcases List.mem_append.mp he with hold | hnew
      · exact hspent.depth e hold
      · obtain rfl := List.mem_singleton.mp hnew
        exact Nat.zero_le _
  | settles _ _ => exact ⟨hpaid, hspent.depth⟩
  | @fetched outcome hanswered =>
    rw [hanswered] at hroot
    have hstep : LeafStep host anchors options leaf S outcome
        (S.leafFetched host anchors options leaf outcome) := leafFetched_step S outcome
    generalize S.leafFetched host anchors options leaf outcome = S' at hstep
    cases hstep with
    | returns _ => exact ⟨hpaid, hspent.depth⟩
    | rejects es incomplete reason _ heq =>
      subst heq
      exact ⟨hpaid, hspent.depth⟩
    | pruned es => exact ⟨hpaid, hspent.depth⟩
    | @forks es incomplete level _ _ =>
      have hfork := total_fork reserved (p := []) (fun i => htree.no_branch hroot.1 [i])
        (level.hints.map fun hint => ({ level, hint } : Branch))
      rw [reserved_children] at hfork
      exact ⟨by simp only; omega, hspent.depth⟩
  | joins _ _ _ => exact ⟨hpaid, hspent.depth⟩
  | finishes _ => exact ⟨hpaid, hspent.depth⟩
  | aborts _ => exact ⟨hpaid, hspent.depth⟩

/-! ## Every reachable state -/

theorem slots_spent_of_reach (h : (resolution host anchors options leaf answers).Reach S) :
    Slots options S ∧ Spent options S := by
  have hall := System.Reach.invariant (S := resolution host anchors options leaf answers)
    (I := fun T : Resolution => Kept host anchors options leaf answers T ∧ Slots options T ∧
      Spent options T) (fun T hinit => ?_) (fun T T' hI hstep => ?_) h
  · exact hall.2
  · obtain ⟨aborted, rfl⟩ := hinit
    exact ⟨kept_init aborted, slots_init aborted, by simp [total, Dict.empty], by simp⟩
  · obtain ⟨hkept, hslots, hspent⟩ := hI
    refine ⟨hkept.step hstep, ?_⟩
    rcases step_cases hstep fun _ _ hget => hkept.branch hget with hroot | ⟨p, b, hget, hbranch⟩
    · exact ⟨hslots.rootStep hkept.tree hkept.phase hroot,
        hspent.rootStep hkept.tree hkept.phase hroot⟩
    · have hb := hkept.branch hget
      exact ⟨hslots.branchStep hkept.tree hget hbranch (branchStep_effect hbranch hget hb.phase).shape,
        hspent.branchStep hkept.tree hget hb.level hbranch⟩

theorem slots_of_reach (h : (resolution host anchors options leaf answers).Reach S) :
    Slots options S := (slots_spent_of_reach h).1

theorem spent_of_reach (h : (resolution host anchors options leaf answers).Reach S) :
    Spent options S := (slots_spent_of_reach h).2

end Resolution

end OidFed
