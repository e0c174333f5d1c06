import OidFed.Keys.Provider
import OidFed.Lib.System
import OidFed.Statements.Builders

/-!
# The cached Entity Configuration of a leaf (`leaf/src/entity-configuration.ts`)

`getEntityConfiguration` answers from a cache, from the build in flight, or from a build of its own;
`refreshEntityConfiguration` starts a new generation with a build of its own. A build waits for the
key set and for the signature, and other calls run in between.

* `LeafRun`: the four variables of a leaf, with all its builds and the calls so far.
* `LeafStep`: a call, or what settles a build.
* `Coherent`: the invariant: of the current generation at most the build in flight is unfinished,
  and the cached JWT is the result of a build of that generation.
* `entityConfiguration_fresh`: what holds along every run.
-/

namespace OidFed

open Js

/-! ## Builds -/

structure LeafConfig where
  entityId : String
  authorityHints : List String
  metadata : Json
  trustMarks : Option (List Json) := none
  trustAnchorHints : Option (List String) := none
  entityConfigurationTtlSeconds : Option Rat := none

/-- A JWT, or the message of an exception. -/
abbrev BuildResult := Except String String

/-- Where a build is: it waits for the key set, or for the signature of a payload with an `exp`, or
it has settled its promise, or the `finally` of its promise has run too. -/
inductive BuildPhase where
  | keys
  | signing (exp : Option Rat)
  | settled (result : BuildResult)
  | finished (result : BuildResult)

def BuildPhase.result? : BuildPhase → Option BuildResult
  | settled r | finished r => some r
  | keys | signing _ => none

/-- The promise of the build is not settled. -/
def BuildPhase.inFlight : BuildPhase → Bool
  | keys | signing _ => true
  | settled _ | finished _ => false

def BuildPhase.isFinished : BuildPhase → Bool
  | finished _ => true
  | keys | signing _ | settled _ => false

structure Build where
  generation : Nat
  phase : BuildPhase

/-- `buildEntityConfiguration` from the key set to the signature. -/
def startSigning (P : Platform) (config : LeafConfig) (keySet : FederationKeySet) (now : Rat) :
    BuildPhase :=
  let payload := do
    validateFederationKeySet keySet
    let payload ← buildEntityConfigurationPayload P
      { now, issuedAt := some now, ttlSeconds := config.entityConfigurationTtlSeconds
        entityId := config.entityId, jwks := jwkSetOf keySet.jwks, metadata := config.metadata
        authorityHints := some config.authorityHints, trustAnchorHints := config.trustAnchorHints
        trustMarks := config.trustMarks }
    validateSigner keySet.signer
    return payload
  match payload with
  | .error e => .settled (.error e)
  | .ok payload => .signing (payload.number? "exp")

/-! ## The leaf -/

structure LeafState where
  cachedJwt : Option String := none
  cachedExp : Option Rat := none
  /-- The build whose promise is kept. -/
  inflight : Option Nat := none
  generation : Nat := 0

/-- A call: the build that it gets its JWT from, and the JWT if it is from the cache. -/
structure LeafCall where
  build : Nat
  cached : Option String

/-- A leaf with its builds and the calls, in the order of their start. -/
structure LeafRun where
  leaf : LeafState := {}
  /-- The build that has written the cache. -/
  cachedBuild : Nat := 0
  builds : List Build := []
  calls : List LeafCall := []

namespace LeafRun

def setPhase (s : LeafRun) (i : Nat) (phase : BuildPhase) : LeafRun :=
  { s with builds := s.builds.modify i fun b => { b with phase } }

def answer (s : LeafRun) (call : LeafCall) : LeafRun := { s with calls := s.calls ++ [call] }

/-- Start a build of the current generation and keep its promise. `failure` is the message of an
exception before the first `await`. -/
def startBuild (s : LeafRun) (failure : Option String) : LeafRun :=
  let phase : BuildPhase := match failure with
    | none => .keys
    | some e => .settled (.error e)
  { s with
    builds := s.builds ++ [{ generation := s.leaf.generation, phase }]
    leaf := { s.leaf with inflight := some s.builds.length } }

def isEntityConfigurationExpired (s : LeafRun) (now : Rat) : Bool :=
  match s.leaf.cachedExp with
  | none => true
  | some exp => decide (exp ≤ now)

def getEntityConfiguration (s : LeafRun) (now : Rat) (failure : Option String) : LeafRun :=
  match s.leaf.cachedJwt.filter fun jwt => jwt != "" && !s.isEntityConfigurationExpired now with
  | some jwt => s.answer { build := s.cachedBuild, cached := some jwt }
  | none =>
    match s.leaf.inflight with
    | some i => s.answer { build := i, cached := none }
    | none => (s.startBuild failure).answer { build := s.builds.length, cached := none }

/-- A new generation, without a cached JWT. -/
def nextGeneration (s : LeafRun) : LeafRun :=
  { s with leaf := { s.leaf with
    generation := s.leaf.generation + 1, cachedJwt := none, cachedExp := none } }

def refreshEntityConfiguration (s : LeafRun) (failure : Option String) : LeafRun :=
  (s.nextGeneration.startBuild failure).answer { build := s.builds.length, cached := none }

/-- The signature of build `i` is there: cache it, unless there has been a refresh. -/
def signed (s : LeafRun) (i generation : Nat) (exp : Option Rat) (jwt : String) : LeafRun :=
  let s := s.setPhase i (.settled (.ok jwt))
  if generation = s.leaf.generation then
    { s with leaf := { s.leaf with cachedJwt := some jwt, cachedExp := exp }, cachedBuild := i }
  else s

/-- The `finally` of build `i`. -/
def finalize (s : LeafRun) (i generation : Nat) (result : BuildResult) : LeafRun :=
  let s := s.setPhase i (.finished result)
  if generation = s.leaf.generation then { s with leaf := { s.leaf with inflight := none } } else s

end LeafRun

/-- What a call has returned so far. -/
def LeafCall.returned (s : LeafRun) (call : LeafCall) : Option BuildResult :=
  match call.cached with
  | some jwt => some (.ok jwt)
  | none => (s.builds[call.build]?).bind fun b => b.phase.result?

/-- A call, or the next event of a build. -/
inductive LeafStep (P : Platform) (config : LeafConfig) (s : LeafRun) : LeafRun → Prop
  | get (now : Rat) (failure : Option String) :
      LeafStep P config s (s.getEntityConfiguration now failure)
  | refresh (failure : Option String) : LeafStep P config s (s.refreshEntityConfiguration failure)
  | keySet (i : Nat) (b : Build) (hb : s.builds[i]? = some b) (hphase : b.phase = .keys)
      (keySet : FederationKeySet) (now : Rat) :
      LeafStep P config s (s.setPhase i (startSigning P config keySet now))
  | keySetFails (i : Nat) (b : Build) (hb : s.builds[i]? = some b) (hphase : b.phase = .keys)
      (e : String) : LeafStep P config s (s.setPhase i (.settled (.error e)))
  | signature (i : Nat) (b : Build) (exp : Option Rat) (hb : s.builds[i]? = some b)
      (hphase : b.phase = .signing exp) (jwt : String) :
      LeafStep P config s (s.signed i b.generation exp jwt)
  | signatureFails (i : Nat) (b : Build) (exp : Option Rat) (hb : s.builds[i]? = some b)
      (hphase : b.phase = .signing exp) (e : String) :
      LeafStep P config s (s.setPhase i (.settled (.error e)))
  | finalize (i : Nat) (b : Build) (result : BuildResult) (hb : s.builds[i]? = some b)
      (hphase : b.phase = .settled result) :
      LeafStep P config s (s.finalize i b.generation result)

/-- A leaf whose calls and builds interleave freely. -/
def leafConfiguration (P : Platform) (config : LeafConfig) : System where
  St := LeafRun
  init s := s = {}
  step := LeafStep P config

/-! ## The invariant -/

structure Coherent (s : LeafRun) : Prop where
  generation : ∀ (i : Nat) (b : Build), s.builds[i]? = some b → b.generation ≤ s.leaf.generation
  inflight : ∀ i : Nat, s.leaf.inflight = some i →
    ∃ b : Build, s.builds[i]? = some b ∧ b.generation = s.leaf.generation
  alone : ∀ (i : Nat) (b : Build), s.builds[i]? = some b → b.generation = s.leaf.generation →
    b.phase.isFinished = false → s.leaf.inflight = some i
  unique : ∀ (i j : Nat) (b c : Build), s.builds[i]? = some b → s.builds[j]? = some c →
    b.generation = c.generation → b.phase.isFinished = false → c.phase.isFinished = false → i = j
  cached : ∀ jwt, s.leaf.cachedJwt = some jwt → ∃ b : Build, s.builds[s.cachedBuild]? = some b ∧
    b.generation = s.leaf.generation ∧ b.phase.result? = some (.ok jwt)
  calls : ∀ call ∈ s.calls, ∀ jwt, call.cached = some jwt →
    ∃ b : Build, s.builds[call.build]? = some b ∧ b.phase.result? = some (.ok jwt)

theorem Coherent.empty : Coherent {} where
  generation i b h := by simp at h
  inflight i h := by simp at h
  alone i b h := by simp at h
  unique i j b c h := by simp at h
  cached jwt h := by simp at h
  calls call h := by simp at h

namespace LeafRun

variable {s : LeafRun}

theorem setPhase_builds (i k : Nat) (phase : BuildPhase) :
    (s.setPhase i phase).builds[k]? =
      (s.builds[k]?).map fun b => if i = k then { b with phase } else b := by
  simp only [setPhase, List.getElem?_modify]
  cases s.builds[k]? <;> by_cases h : i = k <;> simp [h]

/-- A build of the new state was one of the old. -/
theorem setPhase_eq_some {i k : Nat} {phase : BuildPhase} {b' : Build}
    (h : (s.setPhase i phase).builds[k]? = some b') :
    ∃ b, s.builds[k]? = some b ∧ b'.generation = b.generation ∧
      b'.phase = if i = k then phase else b.phase := by
  rw [setPhase_builds] at h
  obtain ⟨b, hb, rfl⟩ := Option.map_eq_some_iff.mp h
  refine ⟨b, hb, ?_, ?_⟩ <;> split <;> rfl

theorem setPhase_of_eq_some (i : Nat) (phase : BuildPhase) {k : Nat} {b : Build}
    (h : s.builds[k]? = some b) :
    ∃ b', (s.setPhase i phase).builds[k]? = some b' ∧ b'.generation = b.generation ∧
      b'.phase = if i = k then phase else b.phase := by
  rw [setPhase_builds, h]
  refine ⟨_, rfl, ?_, ?_⟩ <;> simp only <;> split <;> rfl

end LeafRun

open LeafRun

section Invariant

variable {P : Platform} {config : LeafConfig} {s s' : LeafRun}

/-- A build goes on: it keeps its result, and is not resumed once finished. -/
theorem Coherent.setPhase (h : Coherent s) {i : Nat} {b : Build} {phase : BuildPhase}
    (hb : s.builds[i]? = some b) (hresult : ∀ r, b.phase.result? = some r → phase.result? = some r)
    (hfinished : b.phase.isFinished = true → phase.isFinished = true) :
    Coherent (s.setPhase i phase) := by
  -- a build that is unfinished afterwards was so before
  have hunfinished : ∀ (k : Nat) (b' : Build), (s.setPhase i phase).builds[k]? = some b' →
      b'.phase.isFinished = false →
      ∃ c, s.builds[k]? = some c ∧ b'.generation = c.generation ∧ c.phase.isFinished = false := by
    intro k b' hb' hf
    obtain ⟨c, hc, hgen, hphase⟩ := setPhase_eq_some hb'
    refine ⟨c, hc, hgen, ?_⟩
    rw [hphase] at hf
    split at hf
    · rename_i hik
      subst hik
      obtain rfl := Option.some.inj (hb.symm.trans hc)
      exact Bool.eq_false_iff.mpr fun ht => by simp [hfinished ht] at hf
    · exact hf
  -- and a result that a build has stays
  have hkeeps : ∀ (k : Nat) (c : Build) r, s.builds[k]? = some c → c.phase.result? = some r →
      ∃ c', (s.setPhase i phase).builds[k]? = some c' ∧ c'.generation = c.generation ∧
        c'.phase.result? = some r := by
    intro k c r hc hr
    obtain ⟨c', hc', hgen, hphase⟩ := setPhase_of_eq_some i phase hc
    refine ⟨c', hc', hgen, ?_⟩
    rw [hphase]
    split
    · rename_i hik
      subst hik
      obtain rfl := Option.some.inj (hb.symm.trans hc)
      exact hresult r hr
    · exact hr
  refine ⟨fun k b' hb' => ?_, fun k hk => ?_, fun k b' hb' hgen hf => ?_,
    fun k l b' c' hb' hc' hgen hf hf' => ?_, fun jwt hjwt => ?_, fun call hcall jwt hjwt => ?_⟩
  · obtain ⟨c, hc, hgen, -⟩ := setPhase_eq_some hb'
    exact hgen ▸ h.generation k c hc
  · obtain ⟨c, hc, hgen⟩ := h.inflight k hk
    obtain ⟨c', hc', hgen', -⟩ := setPhase_of_eq_some i phase hc
    exact ⟨c', hc', hgen'.trans hgen⟩
  · obtain ⟨c, hc, hgen', hf'⟩ := hunfinished k b' hb' hf
    exact h.alone k c hc (hgen' ▸ hgen) hf'
  · obtain ⟨b₁, hb₁, hgen₁, hf₁⟩ := hunfinished k b' hb' hf
    obtain ⟨c₁, hc₁, hgen₂, hf₂⟩ := hunfinished l c' hc' hf'
    exact h.unique k l b₁ c₁ hb₁ hc₁ (by rw [← hgen₁, hgen, hgen₂]) hf₁ hf₂
  · obtain ⟨c, hc, hgen, hr⟩ := h.cached jwt hjwt
    obtain ⟨c', hc', hgen', hr'⟩ := hkeeps _ c _ hc hr
    exact ⟨c', hc', hgen'.trans hgen, hr'⟩
  · obtain ⟨c, hc, hr⟩ := h.calls call hcall jwt hjwt
    obtain ⟨c', hc', -, hr'⟩ := hkeeps _ c _ hc hr
    exact ⟨c', hc', hr'⟩

/-- Only the calls change. -/
theorem Coherent.answer (h : Coherent s) {call : LeafCall}
    (hcall : ∀ jwt, call.cached = some jwt →
      ∃ b, s.builds[call.build]? = some b ∧ b.phase.result? = some (.ok jwt)) :
    Coherent (s.answer call) :=
  { h with
    calls := fun c hc => by
      rcases List.mem_append.mp hc with hc | hc
      · exact h.calls c hc
      · obtain rfl := List.mem_singleton.mp hc
        exact hcall }

/-- A build of a generation whose builds are all finished. -/
theorem Coherent.startBuild (h : Coherent s) (failure : Option String)
    (hfinished : ∀ (i : Nat) (b : Build), s.builds[i]? = some b →
      b.generation = s.leaf.generation → b.phase.isFinished = true) :
    Coherent (s.startBuild failure) := by
  set new : Build := { generation := s.leaf.generation, phase := match failure with
    | none => .keys
    | some e => .settled (.error e) } with hnew
  have hbuilds : (s.startBuild failure).builds = s.builds ++ [new] := rfl
  -- the builds are those that there were, and the new one
  have hcases : ∀ (i : Nat) (b : Build), (s.startBuild failure).builds[i]? = some b →
      s.builds[i]? = some b ∨ i = s.builds.length ∧ b = new := by
    intro i b hb
    rw [hbuilds] at hb
    rcases Nat.lt_trichotomy i s.builds.length with hi | hi | hi
    · rw [List.getElem?_append_left hi] at hb
      exact .inl hb
    · subst hi
      rw [List.getElem?_concat_length] at hb
      exact .inr ⟨rfl, (Option.some.inj hb).symm⟩
    · rw [List.getElem?_eq_none (by simp; omega)] at hb
      cases hb
  have hkeeps : ∀ (i : Nat) (b : Build), s.builds[i]? = some b →
      (s.startBuild failure).builds[i]? = some b := by
    intro i b hb
    have hi := (List.getElem?_eq_some_iff.mp hb).1
    rw [hbuilds, List.getElem?_append_left hi]
    exact hb
  refine ⟨fun i b hb => ?_, fun i hi => ?_, fun i b hb hgen hf => ?_,
    fun i j b c hb hc hgen hf hf' => ?_, fun jwt hjwt => ?_, fun call hcall jwt hjwt => ?_⟩
  · rcases hcases i b hb with hb | ⟨-, rfl⟩
    · exact h.generation i b hb
    · exact le_rfl
  · obtain rfl : s.builds.length = i := Option.some.inj hi
    exact ⟨new, by rw [hbuilds, List.getElem?_concat_length], rfl⟩
  · rcases hcases i b hb with hb | ⟨rfl, -⟩
    · rw [hfinished i b hb hgen] at hf
      cases hf
    · rfl
  · rcases hcases i b hb with hb | ⟨rfl, rfl⟩ <;> rcases hcases j c hc with hc | ⟨rfl, rfl⟩
    · exact h.unique i j b c hb hc hgen hf hf'
    · rw [hfinished i b hb hgen] at hf
      cases hf
    · rw [hfinished j c hc hgen.symm] at hf'
      cases hf'
    · rfl
  · obtain ⟨b, hb, hgen, hr⟩ := h.cached jwt hjwt
    exact ⟨b, hkeeps _ b hb, hgen, hr⟩
  · obtain ⟨b, hb, hr⟩ := h.calls call hcall jwt hjwt
    exact ⟨b, hkeeps _ b hb, hr⟩

/-- After a refresh the promise of the old generation is replaced, so it may as well be gone. -/
theorem Coherent.nextGeneration (h : Coherent s) :
    Coherent { s.nextGeneration with
      leaf := { s.nextGeneration.leaf with inflight := none } } where
  generation k b hb := (h.generation k b hb).trans (Nat.le_succ _)
  inflight k hk := by cases hk
  alone k b hb hgen hf := by
    have hle := h.generation k b hb
    have : b.generation = s.leaf.generation + 1 := hgen
    omega
  unique := h.unique
  cached jwt hjwt := by cases hjwt
  calls := h.calls

/-- No build of the current generation is unfinished when none is kept. -/
theorem Coherent.finished (h : Coherent s) (hinflight : s.leaf.inflight = none) (i : Nat)
    (b : Build) (hb : s.builds[i]? = some b) (hgen : b.generation = s.leaf.generation) :
    b.phase.isFinished = true := by
  cases hf : b.phase.isFinished with
  | true => rfl
  | false =>
    rw [h.alone i b hb hgen hf] at hinflight
    cases hinflight

theorem Coherent.getEntityConfiguration (h : Coherent s) (now : Rat) (failure : Option String) :
    Coherent (s.getEntityConfiguration now failure) := by
  unfold LeafRun.getEntityConfiguration
  split
  · rename_i jwt hjwt
    have hcached := (Option.filter_eq_some_iff.mp hjwt).1
    refine h.answer fun jwt' hjwt' => ?_
    obtain rfl := Option.some.inj hjwt'
    obtain ⟨b, hb, -, hr⟩ := h.cached jwt hcached
    exact ⟨b, hb, hr⟩
  · split
    · exact h.answer nofun
    · rename_i hinflight
      exact (h.startBuild failure (h.finished hinflight)).answer nofun

theorem Coherent.refreshEntityConfiguration (h : Coherent s) (failure : Option String) :
    Coherent (s.refreshEntityConfiguration failure) := by
  have hnext := h.nextGeneration.startBuild failure fun k b hb hgen => by
    have hle := h.generation k b hb
    have : b.generation = s.leaf.generation + 1 := hgen
    omega
  exact hnext.answer nofun

theorem Coherent.signed (h : Coherent s) {i : Nat} {b : Build} {exp : Option Rat} {jwt : String}
    (hb : s.builds[i]? = some b) (hphase : b.phase = .signing exp) :
    Coherent (s.signed i b.generation exp jwt) := by
  have hset : Coherent (s.setPhase i (.settled (.ok jwt))) :=
    h.setPhase hb (by rw [hphase]; nofun) (by rw [hphase]; nofun)
  unfold LeafRun.signed
  simp only
  split
  · rename_i hgen
    refine { hset with cached := fun jwt' hjwt' => ?_ }
    obtain rfl := Option.some.inj hjwt'
    obtain ⟨b', hb', hgen', hphase'⟩ := setPhase_of_eq_some i (.settled (.ok jwt)) hb
    exact ⟨b', hb', hgen'.trans hgen, by rw [hphase', if_pos rfl]; rfl⟩
  · exact hset

theorem Coherent.finalize (h : Coherent s) {i : Nat} {b : Build} {result : BuildResult}
    (hb : s.builds[i]? = some b) (hphase : b.phase = .settled result) :
    Coherent (s.finalize i b.generation result) := by
  have hset : Coherent (s.setPhase i (.finished result)) :=
    h.setPhase hb (by rw [hphase]; exact fun r hr => hr) (fun _ => rfl)
  unfold LeafRun.finalize
  simp only
  split
  · rename_i hgen
    refine { hset with inflight := nofun, alone := fun k b' hb' hgen' hf => ?_ }
    -- the build that has settled was the unfinished one of its generation
    obtain ⟨c, hc, hgenc, hphasec⟩ := setPhase_eq_some hb'
    exfalso
    by_cases hik : i = k
    · rw [hphasec, if_pos hik] at hf
      cases hf
    · rw [hphasec, if_neg hik] at hf
      have hcurrent : c.generation = s.leaf.generation := hgenc ▸ hgen'
      have hfb : b.phase.isFinished = false := by rw [hphase]; rfl
      exact hik (h.unique i k b c hb hc (hgen.trans hcurrent.symm) hfb hf)
  · exact hset

theorem Coherent.step (h : Coherent s) (hstep : LeafStep P config s s') : Coherent s' := by
  cases hstep with
  | get now failure => exact h.getEntityConfiguration now failure
  | refresh failure => exact h.refreshEntityConfiguration failure
  | keySet i b hb hphase keySet now =>
    exact h.setPhase hb (by rw [hphase]; nofun) (by rw [hphase]; nofun)
  | keySetFails i b hb hphase e =>
    exact h.setPhase hb (by rw [hphase]; nofun) (by rw [hphase]; nofun)
  | signature i b exp hb hphase jwt => exact h.signed hb hphase
  | signatureFails i b exp hb hphase e =>
    exact h.setPhase hb (by rw [hphase]; nofun) (by rw [hphase]; nofun)
  | finalize i b result hb hphase => exact h.finalize hb hphase

theorem leafConfiguration_coherent (h : (leafConfiguration P config).Reach s) : Coherent s :=
  System.Reach.invariant (S := leafConfiguration P config) (I := Coherent)
    (fun s hs => (show s = {} from hs) ▸ Coherent.empty) (fun _ _ h hstep => h.step hstep) h

/-! ## Calls after a refresh -/

/-- After a refresh in generation `g`, when there were `n` builds and `m` calls, no later call gets
its JWT from one of these builds. -/
structure Refreshed (g n m : Nat) (s : LeafRun) : Prop where
  newer : g < s.leaf.generation
  started : n ≤ s.builds.length
  builds : ∀ (i : Nat) (b : Build), s.builds[i]? = some b → g < b.generation → n ≤ i
  calls : ∀ (k : Nat) (call : LeafCall), m ≤ k → s.calls[k]? = some call → n ≤ call.build

variable {g n m : Nat}

theorem Refreshed.answer (h : Refreshed g n m s) {call : LeafCall} (hcall : n ≤ call.build) :
    Refreshed g n m (s.answer call) :=
  { h with
    calls := fun k c hk hc => by
      rcases Nat.lt_trichotomy k s.calls.length with hlt | heq | hgt
      · rw [LeafRun.answer, List.getElem?_append_left hlt] at hc
        exact h.calls k c hk hc
      · subst heq
        rw [LeafRun.answer, List.getElem?_concat_length] at hc
        exact Option.some.inj hc ▸ hcall
      · rw [LeafRun.answer, List.getElem?_eq_none (by simp; omega)] at hc
        cases hc }

theorem Refreshed.startBuild (h : Refreshed g n m s) (failure : Option String) :
    Refreshed g n m (s.startBuild failure) where
  newer := h.newer
  started := by
    have := h.started
    simp only [LeafRun.startBuild, List.length_append, List.length_singleton]
    omega
  builds i b hb hg := by
    rcases Nat.lt_or_ge i s.builds.length with hlt | hge
    · have hbuilds : (s.startBuild failure).builds = s.builds ++ [_] := rfl
      rw [hbuilds, List.getElem?_append_left hlt] at hb
      exact h.builds i b hb hg
    · exact h.started.trans hge
  calls := h.calls

theorem Refreshed.setPhase (h : Refreshed g n m s) (i : Nat) (phase : BuildPhase) :
    Refreshed g n m (s.setPhase i phase) where
  newer := h.newer
  started := by
    rw [LeafRun.setPhase, List.length_modify]
    exact h.started
  builds k b hb hg := by
    obtain ⟨c, hc, hgen, -⟩ := setPhase_eq_some hb
    exact h.builds k c hc (hgen ▸ hg)
  calls := h.calls

theorem Refreshed.getEntityConfiguration (h : Refreshed g n m s) (hc : Coherent s) (now : Rat)
    (failure : Option String) : Refreshed g n m (s.getEntityConfiguration now failure) := by
  unfold LeafRun.getEntityConfiguration
  split
  · rename_i jwt hjwt
    obtain ⟨b, hb, hgen, -⟩ := hc.cached jwt (Option.filter_eq_some_iff.mp hjwt).1
    exact h.answer (h.builds _ b hb (hgen ▸ h.newer))
  · split
    · rename_i i hi
      obtain ⟨b, hb, hgen⟩ := hc.inflight i hi
      exact h.answer (h.builds i b hb (hgen ▸ h.newer))
    · exact (h.startBuild failure).answer h.started

theorem Refreshed.refreshEntityConfiguration (h : Refreshed g n m s) (failure : Option String) :
    Refreshed g n m (s.refreshEntityConfiguration failure) := by
  have hnext : Refreshed g n m s.nextGeneration :=
    { h with newer := h.newer.trans (Nat.lt_succ_self _) }
  exact (hnext.startBuild failure).answer h.started

/-- The refresh itself. -/
theorem Coherent.refreshed (h : Coherent s) (failure : Option String) :
    Refreshed s.leaf.generation s.builds.length s.calls.length
      (s.refreshEntityConfiguration failure) := by
  have hnext : Refreshed s.leaf.generation s.builds.length s.calls.length s.nextGeneration :=
    { newer := Nat.lt_succ_self _
      started := le_rfl
      builds := fun i b hb hg => absurd (h.generation i b hb) (Nat.not_le.mpr hg)
      calls := fun k call hk hcall => by
        have hnone : s.calls[k]? = none := List.getElem?_eq_none hk
        rw [show s.nextGeneration.calls = s.calls from rfl, hnone] at hcall
        cases hcall }
  exact (hnext.startBuild failure).answer le_rfl

theorem Refreshed.step (h : Refreshed g n m s) (hc : Coherent s)
    (hstep : LeafStep P config s s') : Refreshed g n m s' := by
  cases hstep with
  | get now failure => exact h.getEntityConfiguration hc now failure
  | refresh failure => exact h.refreshEntityConfiguration failure
  | keySet i b hb hphase keySet now => exact h.setPhase i _
  | keySetFails i b hb hphase e => exact h.setPhase i _
  | signature i b exp hb hphase jwt =>
    have hset := h.setPhase i (.settled (.ok jwt))
    unfold LeafRun.signed
    simp only
    split
    · exact { hset with newer := hset.newer }
    · exact hset
  | signatureFails i b exp hb hphase e => exact h.setPhase i _
  | finalize i b result hb hphase =>
    have hset := h.setPhase i (.finished result)
    unfold LeafRun.finalize
    simp only
    split
    · exact { hset with newer := hset.newer }
    · exact hset

/-- What a call has returned is the result of its build. -/
theorem Coherent.returned (h : Coherent s) {call : LeafCall} (hcall : call ∈ s.calls)
    {jwt : String} (hjwt : call.returned s = some (.ok jwt)) :
    ∃ b, s.builds[call.build]? = some b ∧ b.phase.result? = some (.ok jwt) := by
  unfold LeafCall.returned at hjwt
  cases hcached : call.cached with
  | some jwt' =>
    rw [hcached] at hjwt
    obtain rfl := Except.ok.inj (Option.some.inj hjwt)
    exact h.calls call hcall jwt' hcached
  | none =>
    rw [hcached] at hjwt
    exact Option.bind_eq_some_iff.mp hjwt

/-- In every state of every run: the cached JWT is the result of a build of the current generation;
a call from a refresh on, the refresh itself included, returns no JWT of a build that had started
before it; and at most one build of a generation is in flight. -/
theorem entityConfiguration_fresh (hs : (leafConfiguration P config).Reach s) :
    (∀ jwt, s.leaf.cachedJwt = some jwt → ∃ b : Build, s.builds[s.cachedBuild]? = some b ∧
      b.generation = s.leaf.generation ∧ b.phase.result? = some (.ok jwt)) ∧
    (∀ failure s', (leafConfiguration P config).Later (s.refreshEntityConfiguration failure) s' →
      ∀ (k : Nat) (call : LeafCall) jwt, s.calls.length ≤ k → s'.calls[k]? = some call →
        call.returned s' = some (.ok jwt) → s.builds.length ≤ call.build ∧
          ∃ b : Build, s'.builds[call.build]? = some b ∧ b.phase.result? = some (.ok jwt)) ∧
    ∀ (i j : Nat) (b c : Build), s.builds[i]? = some b → s.builds[j]? = some c →
      b.generation = c.generation → b.phase.inFlight = true → c.phase.inFlight = true → i = j := by
  have hcoherent := leafConfiguration_coherent hs
  have hunfinished : ∀ phase : BuildPhase, phase.inFlight = true → phase.isFinished = false := by
    intro phase h
    cases phase <;> simp_all [BuildPhase.inFlight, BuildPhase.isFinished]
  refine ⟨hcoherent.cached, fun failure s' hlater k call jwt hk hcall hjwt => ?_,
    fun i j b c hb hc hgen hf hf' =>
      hcoherent.unique i j b c hb hc hgen (hunfinished _ hf) (hunfinished _ hf')⟩
  have hlast : Coherent s' ∧
      Refreshed s.leaf.generation s.builds.length s.calls.length s' :=
    System.Later.keeps (S := leafConfiguration P config)
      (I := fun s' => Coherent s' ∧
        Refreshed s.leaf.generation s.builds.length s.calls.length s')
      (fun _ _ h hstep => ⟨h.1.step hstep, h.2.step h.1 hstep⟩)
      ⟨hcoherent.refreshEntityConfiguration failure, hcoherent.refreshed failure⟩ hlater
  exact ⟨hlast.2.calls k call hk hcall,
    hlast.1.returned (List.mem_of_getElem? hcall) hjwt⟩

end Invariant

/-! ## An example -/

def exampleLeaf : LeafConfig where
  entityId := "https://leaf.example"
  authorityHints := ["https://anchor.example"]
  metadata := .obj [("federation_entity", .obj [])]

def exampleLeafKeySet : FederationKeySet where
  signer := { kid := "a", alg := "ES256" }
  jwks := [Dict.ofEntries [("kty", .str "EC"), ("kid", .str "a")]]

/-- A call whose build waits for the signature of its payload. -/
def exampleLeafRun : LeafRun :=
  (({} : LeafRun).getEntityConfiguration 1000 none).setPhase 0
    (startSigning (tablePlatform []) exampleLeaf exampleLeafKeySet 1000)

theorem exampleLeafRun_reached :
    (leafConfiguration (tablePlatform []) exampleLeaf).Reach exampleLeafRun := by
  have hinit : (leafConfiguration (tablePlatform []) exampleLeaf).Reach ({} : LeafRun) :=
    .init rfl
  have hget := hinit.step (LeafStep.get 1000 none)
  exact hget.step (LeafStep.keySet 0 { generation := 0, phase := .keys } rfl rfl
    exampleLeafKeySet 1000)

/-- A refresh overtakes the build in flight: its own call does not get the JWT of that build. -/
theorem exampleLeafRun_fresh :
    (exampleLeafRun.builds.map fun b => b.phase.inFlight) = [true] ∧
    ∀ s', (leafConfiguration (tablePlatform []) exampleLeaf).Later
        (exampleLeafRun.refreshEntityConfiguration none) s' →
      ∀ (call : LeafCall) (jwt : String), s'.calls[1]? = some call →
        call.returned s' = some (.ok jwt) → 1 ≤ call.build := by
  refine ⟨by decide +kernel, fun s' hlater call jwt hcall hjwt => ?_⟩
  have hfresh := (entityConfiguration_fresh exampleLeafRun_reached).2.1
  exact (hfresh none s' hlater 1 call jwt le_rfl hcall hjwt).1

end OidFed
