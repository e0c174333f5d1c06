import OidFed.Resolve.Steps

/-!
# The tree of branches of a discovery

* `levelAt`: the hints that a call has forked branches for. `Tree`: every branch is that of one hint
  of its parent, every hint has its branch, and whoever has joined finds its branches ended.
* `stays_tree`, `forks_tree`: the two ways in which a step of a branch changes the tree.
* `Kept`, `RootHolds`: the invariant, kept by every step (`Kept.step`) and so in every reachable
  state (`kept_of_reach`).
* `returned_of_reach`: a result is that of the leaf alone, or that of the walk.
-/

namespace OidFed

open Js ForkJoin

namespace Resolution

/-- The call of `buildChains` at a path that has forked its branches. -/
def levelAt (S : Resolution) : NodePath → Option Level
  | [] => S.root
  | i :: p => (S.branches.get? (i :: p)).bind fun b => forked b.phase

structure Tree (S : Resolution) : Prop where
  nil : S.branches.get? [] = none
  parent : ∀ {i : Nat} {p : NodePath} {b : Branch}, S.branches.get? (i :: p) = some b →
    S.levelAt p = some b.level ∧ b.level.hints[i]? = some b.hint
  child : ∀ {p : NodePath} {level : Level} {i : Nat}, S.levelAt p = some level →
    i < level.hints.length → ∃ b, S.branches.get? (i :: p) = some b
  settled : ∀ {p : NodePath} {b : Branch} {level : Level}, S.branches.get? p = some b →
    b.phase = .ended (.recursed (some level)) → S.AllSettled p level

/-- A branch has not ended. -/
def Active (b : Branch) : Prop := ∀ how, b.phase ≠ .ended how

section Tree

variable {S S' : Resolution} {p q : NodePath} {b : Branch}

theorem levelAt_of_get? (hnil : S.branches.get? [] = none) (hget : S.branches.get? p = some b) :
    S.levelAt p = forked b.phase := by
  cases p with
  | nil => simp [hnil] at hget
  | cons i p => simp [levelAt, hget]

theorem endOf_eq_some {how : BranchEnd} :
    S.endOf q = some how ↔ ∃ b, S.branches.get? q = some b ∧ b.phase = .ended how := by
  unfold endOf
  constructor
  · intro h
    split at h
    · rename_i level hint how' hget
      obtain rfl := Option.some.inj h
      exact ⟨_, hget, rfl⟩
    · simp at h
  · rintro ⟨⟨level, hint, phase⟩, hget, hphase⟩
    obtain rfl : phase = .ended how := hphase
    rw [hget]

/-- What has ended stays so. -/
def KeepsEnds (S S' : Resolution) : Prop :=
  ∀ q how, S.endOf q = some how → S'.endOf q = some how

theorem KeepsEnds.allSettled {level : Level} (h : KeepsEnds S S') (hall : S.AllSettled q level) :
    S'.AllSettled q level := by
  intro i hi
  obtain ⟨how, hhow⟩ := Option.isSome_iff_exists.mp (hall i hi)
  rw [h _ how hhow]
  rfl

theorem keepsEnds_of_branches (h : S'.branches = S.branches) : KeepsEnds S S' := by
  intro q how hend
  obtain ⟨b, hget, hphase⟩ := endOf_eq_some.mp hend
  exact endOf_eq_some.mpr ⟨b, by rw [h, hget], hphase⟩

/-- Before the leaf has forked there are no branches. -/
theorem Tree.no_branch (h : Tree S) (hroot : S.root = none) (p : NodePath) :
    S.branches.get? p = none := by
  induction p with
  | nil => exact h.nil
  | cons i p ih =>
    by_contra hne
    obtain ⟨b, hget⟩ := Option.ne_none_iff_exists'.mp hne
    obtain ⟨hlevel, -⟩ := h.parent hget
    cases p with
    | nil => simp [levelAt, hroot] at hlevel
    | cons j p => simp [levelAt, ih] at hlevel

/-! ## A branch goes on -/

/-- A step of a branch that forks nothing. -/
structure Stays (S : Resolution) (p : NodePath) (b : Branch) (phase : BranchPhase)
    (S' : Resolution) : Prop where
  get : S.branches.get? p = some b
  active : Active b
  branches : S'.branches = S.branches.set p { b with phase := phase }
  root : S'.root = S.root
  forked : forked phase = forked b.phase

namespace Stays

variable {phase : BranchPhase}

theorem get?_self (h : Stays S p b phase S') :
    S'.branches.get? p = some { b with phase := phase } := by
  rw [h.branches, Dict.get?_set_self]

theorem get?_ne (h : Stays S p b phase S') (hne : q ≠ p) :
    S'.branches.get? q = S.branches.get? q := by
  rw [h.branches, Dict.get?_set_ne _ _ hne]

/-- A branch keeps its level and its hint. -/
theorem get?_some (h : Stays S p b phase S') {b' : Branch} (hget : S'.branches.get? q = some b') :
    (q = p ∧ b' = { b with phase := phase }) ∨ (q ≠ p ∧ S.branches.get? q = some b') := by
  by_cases hq : q = p
  · subst hq
    rw [h.get?_self] at hget
    exact .inl ⟨rfl, (Option.some.inj hget).symm⟩
  · rw [h.get?_ne hq] at hget
    exact .inr ⟨hq, hget⟩

theorem levelAt (h : Stays S p b phase S') (hnil : S.branches.get? [] = none) (q : NodePath) :
    S'.levelAt q = S.levelAt q := by
  cases q with
  | nil => exact h.root
  | cons i q =>
    by_cases hq : i :: q = p
    · rw [levelAt_of_get? hnil (hq ▸ h.get), Resolution.levelAt, hq, h.get?_self]
      exact h.forked
    · rw [Resolution.levelAt, h.get?_ne hq]
      rfl

theorem keepsEnds (h : Stays S p b phase S') : KeepsEnds S S' := by
  intro q how hend
  obtain ⟨c, hget, hphase⟩ := endOf_eq_some.mp hend
  have hne : q ≠ p := by
    rintro rfl
    rw [h.get] at hget
    obtain rfl := Option.some.inj hget
    exact h.active how hphase
  exact endOf_eq_some.mpr ⟨c, by rw [h.get?_ne hne, hget], hphase⟩

end Stays

theorem stays_tree {phase : BranchPhase} (htree : Tree S) (h : Stays S p b phase S')
    (hjoin : ∀ level, phase = .ended (.recursed (some level)) → S.AllSettled p level) : Tree S' := by
  refine ⟨?_, ?_, ?_, ?_⟩
  · have hne : ([] : NodePath) ≠ p := by
      rintro rfl
      exact absurd h.get (by simp [htree.nil])
    rw [h.get?_ne hne, htree.nil]
  · intro i q c hget
    rw [h.levelAt htree.nil]
    rcases h.get?_some hget with ⟨rfl, rfl⟩ | ⟨-, hold⟩
    · obtain ⟨hlevel, hhint⟩ := htree.parent h.get
      exact ⟨hlevel, hhint⟩
    · exact htree.parent hold
  · intro q level i hlevel hi
    rw [h.levelAt htree.nil] at hlevel
    obtain ⟨c, hget⟩ := htree.child hlevel hi
    by_cases hq : i :: q = p
    · exact ⟨_, hq ▸ h.get?_self⟩
    · exact ⟨c, by rw [h.get?_ne hq, hget]⟩
  · intro q c level hget hphase
    refine h.keepsEnds.allSettled ?_
    rcases h.get?_some hget with ⟨rfl, rfl⟩ | ⟨-, hold⟩
    · exact hjoin level hphase
    · exact htree.settled hold hphase

/-! ## A branch forks -/

/-- A step of a branch that forks the branches of a level. -/
structure Forks (S : Resolution) (p : NodePath) (b : Branch) (level : Level) (S' : Resolution) :
    Prop where
  get : S.branches.get? p = some b
  active : Active b
  branches : S'.branches = (fork S.branches p (level.hints.map fun hint => { level, hint })).set p
    { b with phase := .recursing level }
  root : S'.root = S.root
  forked : forked b.phase = none

/-- A path is not that of its children. -/
theorem ne_child (i : Nat) (p : NodePath) : i :: p ≠ p := by
  intro h
  have := congrArg List.length h
  rw [List.length_cons] at this
  omega

namespace Forks

variable {level : Level}

theorem no_child (h : Forks S p b level S') (htree : Tree S) (i : Nat) :
    S.branches.get? (i :: p) = none := by
  by_contra hne
  obtain ⟨c, hget⟩ := Option.ne_none_iff_exists'.mp hne
  have hlevel := (htree.parent hget).1
  rw [levelAt_of_get? htree.nil h.get, h.forked] at hlevel
  simp at hlevel

theorem get?_self (h : Forks S p b level S') :
    S'.branches.get? p = some { b with phase := .recursing level } := by
  rw [h.branches, Dict.get?_set_self]

theorem get?_child (h : Forks S p b level S') (htree : Tree S) (i : Nat) :
    S'.branches.get? (i :: p) = level.hints[i]?.map fun hint => { level, hint } := by
  rw [h.branches, Dict.get?_set_ne _ _ (ne_child i p), get?_fork_child, h.no_child htree,
    Option.or_none, List.getElem?_map]

theorem get?_ne (h : Forks S p b level S') (hne : q ≠ p) (hchild : ∀ i, q ≠ i :: p) :
    S'.branches.get? q = S.branches.get? q := by
  rw [h.branches, Dict.get?_set_ne _ _ hne, get?_fork_of_ne hchild]

/-- A branch is that which has forked, a new one or an old one. -/
theorem get?_some (h : Forks S p b level S') (htree : Tree S) {c : Branch}
    (hget : S'.branches.get? q = some c) :
    (q = p ∧ c = { b with phase := .recursing level }) ∨
      (∃ i hint, q = i :: p ∧ level.hints[i]? = some hint ∧ c = { level, hint }) ∨
      (q ≠ p ∧ S.branches.get? q = some c) := by
  by_cases hq : q = p
  · subst hq
    rw [h.get?_self] at hget
    exact .inl ⟨rfl, (Option.some.inj hget).symm⟩
  · by_cases hchild : ∃ i, q = i :: p
    · obtain ⟨i, rfl⟩ := hchild
      rw [h.get?_child htree, Option.map_eq_some_iff] at hget
      obtain ⟨hint, hhint, rfl⟩ := hget
      exact .inr (.inl ⟨i, hint, rfl, hhint, rfl⟩)
    · rw [h.get?_ne hq (by simpa using hchild)] at hget
      exact .inr (.inr ⟨hq, hget⟩)

/-- What was there before, the branch that forks apart. -/
theorem get?_old (h : Forks S p b level S') (htree : Tree S) (hne : q ≠ p) {c : Branch}
    (hget : S.branches.get? q = some c) : S'.branches.get? q = some c := by
  rw [h.get?_ne hne, hget]
  rintro i rfl
  rw [h.no_child htree] at hget
  simp at hget

theorem levelAt_self (h : Forks S p b level S') (htree : Tree S) : S'.levelAt p = some level := by
  cases p with
  | nil => exact absurd h.get (by simp [htree.nil])
  | cons i p => simp [levelAt, h.get?_self, Resolution.forked]

theorem levelAt_child (h : Forks S p b level S') (htree : Tree S) (i : Nat) :
    S'.levelAt (i :: p) = none := by
  rw [levelAt, h.get?_child htree]
  cases level.hints[i]? with
  | none => rfl
  | some hint => rfl

theorem levelAt_ne (h : Forks S p b level S') (hne : q ≠ p) (hchild : ∀ i, q ≠ i :: p) :
    S'.levelAt q = S.levelAt q := by
  cases q with
  | nil => exact h.root
  | cons j q => rw [levelAt, h.get?_ne hne hchild, levelAt]

/-- The levels of other paths stay. -/
theorem levelAt_some (h : Forks S p b level S') (htree : Tree S) {old : Level}
    (hlevel : S'.levelAt q = some old) : (q = p ∧ old = level) ∨ S.levelAt q = some old := by
  by_cases hq : q = p
  · subst hq
    rw [h.levelAt_self htree] at hlevel
    exact .inl ⟨rfl, (Option.some.inj hlevel).symm⟩
  · by_cases hchild : ∃ i, q = i :: p
    · obtain ⟨i, rfl⟩ := hchild
      simp [h.levelAt_child htree] at hlevel
    · rw [h.levelAt_ne hq (by simpa using hchild)] at hlevel
      exact .inr hlevel

theorem levelAt_old (h : Forks S p b level S') (htree : Tree S) {old : Level}
    (hlevel : S.levelAt q = some old) : S'.levelAt q = some old := by
  have hq : q ≠ p := by
    rintro rfl
    rw [levelAt_of_get? htree.nil h.get, h.forked] at hlevel
    simp at hlevel
  have hchild : ∀ i, q ≠ i :: p := by
    rintro i rfl
    simp [levelAt, h.no_child htree] at hlevel
  rw [h.levelAt_ne hq hchild, hlevel]

theorem keepsEnds (h : Forks S p b level S') (htree : Tree S) : KeepsEnds S S' := by
  intro q how hend
  obtain ⟨c, hget, hphase⟩ := endOf_eq_some.mp hend
  have hne : q ≠ p := by
    rintro rfl
    rw [h.get] at hget
    obtain rfl := Option.some.inj hget
    exact h.active how hphase
  exact endOf_eq_some.mpr ⟨c, h.get?_old htree hne hget, hphase⟩

end Forks

theorem forks_tree {level : Level} (htree : Tree S) (h : Forks S p b level S') : Tree S' := by
  refine ⟨?_, ?_, ?_, ?_⟩
  · have hne : ([] : NodePath) ≠ p := by
      rintro rfl
      exact absurd h.get (by simp [htree.nil])
    rw [h.get?_ne hne (by simp), htree.nil]
  · intro i q c hget
    rcases h.get?_some htree hget with ⟨rfl, rfl⟩ | ⟨j, hint, hq, hhint, rfl⟩ | ⟨-, hold⟩
    · obtain ⟨hlevel, hhint⟩ := htree.parent h.get
      exact ⟨h.levelAt_old htree hlevel, hhint⟩
    · obtain ⟨rfl, rfl⟩ := List.cons.inj hq
      exact ⟨h.levelAt_self htree, hhint⟩
    · obtain ⟨hlevel, hhint⟩ := htree.parent hold
      exact ⟨h.levelAt_old htree hlevel, hhint⟩
  · intro q old i hlevel hi
    rcases h.levelAt_some htree hlevel with ⟨rfl, rfl⟩ | hold
    · exact ⟨_, by rw [h.get?_child htree, List.getElem?_eq_getElem hi]; rfl⟩
    · obtain ⟨c, hget⟩ := htree.child hold hi
      by_cases hq : i :: q = p
      · exact ⟨_, hq ▸ h.get?_self⟩
      · exact ⟨c, h.get?_old htree hq hget⟩
  · intro q c old hget hphase
    refine (h.keepsEnds htree).allSettled ?_
    rcases h.get?_some htree hget with ⟨rfl, rfl⟩ | ⟨j, hint, rfl, hhint, rfl⟩ | ⟨-, hold⟩
    · simp at hphase
    · simp at hphase
    · exact htree.settled hold hphase

end Tree

/-! ## What stays known -/

/-- What is only added to. -/
structure Grows (S S' : Resolution) : Prop where
  incomplete : S.incomplete = true → S'.incomplete = true
  aborted : S.aborted = true → S'.aborted = true
  chains : S.chains ⊆ S'.chains
  errors : S.errors ⊆ S'.errors

section Known

variable {host : ResolutionHost} {anchors : TrustAnchorSet} {options : ResolutionOptions}
  {leaf : String} {answers : FetchCall → FetchOutcome → Prop} {S S' : Resolution} {b : Branch}

theorem Grows.complete (h : Grows S S') (hcomplete : S'.incomplete = false) :
    S.incomplete = false := by
  by_contra hne
  rw [h.incomplete (by simpa using hne)] at hcomplete
  exact Bool.false_ne_true hcomplete.symm

theorem Got.withPhase {work : Work} (h : Got host answers b work) (phase : BranchPhase) :
    Got host answers { b with phase := phase } work := ⟨h.fresh, h.work⟩

theorem Attested.withPhase {configuration statement : String} {decoded : ParsedEntityStatement}
    (h : Attested host answers b configuration statement decoded) (phase : BranchPhase) :
    Attested host answers { b with phase := phase } configuration statement decoded :=
  ⟨h.fresh, h.fetched, h.decodes, h.attested⟩

theorem Recurses.grows {level : Level} (hgrows : Grows S S')
    (h : Recurses host anchors options leaf answers S b level) (phase : BranchPhase) :
    Recurses host anchors options leaf answers S' { b with phase := phase } level := by
  obtain ⟨configuration, statement, decoded, items, hattested, hanchor, hitems, hle, hlevel⟩ := h.next
  exact ⟨h.holds, configuration, statement, decoded, items, hattested.withPhase phase, hanchor,
    hitems, fun hcomplete => hle (hgrows.complete hcomplete), hlevel⟩

theorem Fate.grows {how : BranchEnd} (hgrows : Grows S S')
    (h : Fate host anchors options leaf answers S b how) (phase : BranchPhase) :
    Fate host anchors options leaf answers S' { b with phase := phase } how := by
  cases h with
  | looped hhint hmem => exact .looped hhint hmem
  | overBudget hincomplete => exact .overBudget (hgrows.incomplete hincomplete)
  | aborted haborted => exact .aborted (hgrows.aborted haborted)
  | rejected hgot houtcome => exact .rejected (hgot.withPhase phase) houtcome
  | failed hgot houtcome => exact .failed (hgot.withPhase phase) houtcome
  | undecodable hfetched hdecode => exact .undecodable hfetched hdecode
  | noEndpoint hfetched hdecode hendpoint => exact .noEndpoint hfetched hdecode hendpoint
  | dropped hattested hanchor hdecode => exact .dropped (hattested.withPhase phase) hanchor hdecode
  | unexpiring hattested hanchor hdecode hexpires =>
    exact .unexpiring (hattested.withPhase phase) hanchor hdecode hexpires
  | completed hattested hanchor hstatements hentity htrust hmem =>
    exact .completed (hattested.withPhase phase) hanchor hstatements hentity htrust
      (hgrows.chains hmem)
  | noHints hattested hanchor hlacks => exact .noHints (hattested.withPhase phase) hanchor hlacks
  | noList hattested hanchor hhints hlist =>
    exact .noList (hattested.withPhase phase) hanchor hhints hlist
  | pruned hincomplete => exact .pruned (hgrows.incomplete hincomplete)
  | recursed hrecurses => exact .recursed (hrecurses.grows hgrows phase)

theorem PhaseHolds.grows {at' : BranchPhase} (hgrows : Grows S S')
    (h : PhaseHolds host anchors options leaf answers S b at') (phase : BranchPhase) :
    PhaseHolds host anchors options leaf answers S' { b with phase := phase } at' := by
  cases at' with
  | entering => trivial
  | waiting work => exact Got.withPhase h phase
  | fetching work => exact Got.withPhase h phase
  | answered work outcome => exact ⟨h.1.withPhase phase, h.2⟩
  | recursing level => exact Recurses.grows hgrows h phase
  | ended how => exact Fate.grows hgrows h phase

theorem BranchHolds.grows (hgrows : Grows S S')
    (h : BranchHolds host anchors options leaf answers S b) :
    BranchHolds host anchors options leaf answers S' b := ⟨h.level, h.phase.grows hgrows b.phase⟩

theorem StartsFrom.grows {outcome : FetchOutcome} {level : Level} (hgrows : Grows S S')
    (h : StartsFrom host options leaf S.incomplete outcome level) :
    StartsFrom host options leaf S'.incomplete outcome level := by
  obtain ⟨configuration, decoded, items, houtcome, hdecode, hitems, hle, hlevel⟩ := h.starts
  exact ⟨h.bounded, configuration, decoded, items, houtcome, hdecode, hitems,
    fun hcomplete => hle (hgrows.complete hcomplete), hlevel⟩

end Known

end Resolution

end OidFed
