import OidFed.Platform

/-!
# Constraints of a Subordinate Statement (`constraints/index.ts`)

* `checkMaxPathLength`, `checkNamingConstraints`, `applyAllowedEntityTypes`: the three kinds.
* `checkConstraints`: the first two, for the statement at a position of the chain. The naming
  constraints are checked against the subjects at the positions below that of the statement.
-/

namespace OidFed

open Js

structure NamingConstraints where
  permitted : Option (List String) := none
  excluded : Option (List String) := none
  deriving DecidableEq

structure TrustChainConstraints where
  maxPathLength : Option Rat := none
  namingConstraints : Option NamingConstraints := none
  allowedEntityTypes : Option (List String) := none
  deriving DecidableEq

/-- The strings of an array of strings. -/
def stringItems (v : Json) : Option (List String) := v.items?.map fun l => l.filterMap Json.string?

/-- The constraints as their schema has accepted them. -/
def TrustChainConstraints.ofJson (v : Json) : TrustChainConstraints where
  maxPathLength := (v.get? "max_path_length").bind Json.number?
  namingConstraints := (v.get? "naming_constraints").map fun n =>
    { permitted := (n.get? "permitted").bind stringItems
      excluded := (n.get? "excluded").bind stringItems }
  allowedEntityTypes := (v.get? "allowed_entity_types").bind stringItems

/-- Intermediates between the constrainer at a position and the leaf: one less than the
position. -/
def checkMaxPathLength (maxPathLength : Rat) (constrainerPosition : Nat) : Bool :=
  decide ((constrainerPosition : Rat) - 1 ≤ maxPathLength)

def matchesDomainPattern (hostname pattern : String) : Bool :=
  if ['.'].isPrefixOf pattern.toList then pattern.toList.isSuffixOf hostname.toList
  else hostname == pattern

/-- The constraints on a hostname. Excluded overrides permitted. -/
def checkHostname (namingConstraints : NamingConstraints) (hostname : String) : Bool :=
  !(namingConstraints.excluded.getD []).any (matchesDomainPattern hostname) &&
    match namingConstraints.permitted with
    | none => true
    | some permitted => permitted.any (matchesDomainPattern hostname)

section Check

variable (P : Platform)

def checkNamingConstraints (namingConstraints : NamingConstraints) (entityId : String) :
    Except JsError Bool :=
  match P.parseUrl entityId with
  | none => .error .typeError
  | some url => .ok (checkHostname namingConstraints url.hostname)

/-- Keep the allowed entity types, and `federation_entity`. -/
def applyAllowedEntityTypes (allowedEntityTypes : List String) (metadata : FederationMetadata) :
    FederationMetadata where
  members := metadata.members.filter fun t =>
    t.1 == "federation_entity" || allowedEntityTypes.contains t.1
  nodup := metadata.nodup.sublist (List.filter_sublist.map _)

/-- The loop over the subjects below a position. -/
def checkSubjects (namingConstraints : NamingConstraints) :
    List (Nat × String) → Except JsError (Option FederationError)
  | [] => .ok none
  | (i, entityId) :: rest => do
    if ← checkNamingConstraints P namingConstraints entityId then
      checkSubjects namingConstraints rest
    else
      return some (internalError .ConstraintViolation
        s!"naming_constraints violated by entity '{entityId}' at position {i}")

/-- The entity that a statement is about. -/
def subjectOf (es : ParsedEntityStatement) : String := (es.payload.string? "sub").getD ""

/-- The subjects of the first `position` statements, with their positions. -/
def subjectsBelow (position : Nat) (chain : List ParsedEntityStatement) : List (Nat × String) :=
  (chain.take position).zipIdx.map fun s => (s.2, subjectOf s.1)

/-- The error of a violated constraint of the statement at a position, if any. -/
def checkConstraints (constraints : TrustChainConstraints) (position : Nat)
    (chain : List ParsedEntityStatement) : Except JsError (Option FederationError) := do
  match constraints.maxPathLength with
  | some maxPathLength =>
    if !checkMaxPathLength maxPathLength position then
      return some (internalError .ConstraintViolation
        s!"max_path_length constraint violated: {(position : Int) - 1} intermediates exceed max {P.numberText maxPathLength}")
  | none => pure ()
  match constraints.namingConstraints with
  | none => return none
  | some namingConstraints => checkSubjects P namingConstraints (subjectsBelow position chain)

end Check

/-! ## What the checks decide -/

theorem get?_applyAllowedEntityTypes (allowed : List String) (metadata : FederationMetadata)
    (entityType : String) : (applyAllowedEntityTypes allowed metadata).get? entityType =
      if entityType = "federation_entity" ∨ entityType ∈ allowed then metadata.get? entityType
      else none := by
  change (metadata.members.filter fun t =>
    t.1 == "federation_entity" || allowed.contains t.1).lookup entityType =
    if _ then metadata.members.lookup entityType else none
  induction metadata.members with
  | nil => simp
  | cons t rest ih =>
    by_cases ht : t.1 = "federation_entity" ∨ t.1 ∈ allowed
    · rw [List.filter_cons_of_pos (by simpa using ht), lookup_cons_ite, lookup_cons_ite, ih]
      by_cases hk : entityType = t.1
      · simp [hk, ht]
      · simp [hk]
    · rw [List.filter_cons_of_neg (by simpa using ht), lookup_cons_ite, ih]
      by_cases hk : entityType = t.1
      · simp [hk, ht]
      · simp [hk]

section CheckLemmas

variable {P : Platform}

theorem checkSubjects_eq_none {namingConstraints : NamingConstraints}
    {subjects : List (Nat × String)} :
    checkSubjects P namingConstraints subjects = .ok none ↔
      ∀ s ∈ subjects, checkNamingConstraints P namingConstraints s.2 = .ok true := by
  induction subjects with
  | nil => simp [checkSubjects]
  | cons s rest ih =>
    obtain ⟨i, entityId⟩ := s
    rw [checkSubjects, List.forall_mem_cons]
    cases hc : checkNamingConstraints P namingConstraints entityId with
    | error e => simp [bind, Except.bind]
    | ok b =>
      cases b with
      | false => simp [bind, Except.bind, pure, Except.pure]
      | true => simpa [bind, Except.bind] using ih

theorem checkConstraints_eq_none {constraints : TrustChainConstraints} {position : Nat}
    {chain : List ParsedEntityStatement} (h : checkConstraints P constraints position chain = .ok none) :
    (∀ m, constraints.maxPathLength = some m → (position : Rat) - 1 ≤ m) ∧
      ∀ n, constraints.namingConstraints = some n → ∀ i es, i < position → chain[i]? = some es →
        checkNamingConstraints P n (subjectOf es) = .ok true := by
  unfold checkConstraints at h
  have hnaming : (match constraints.namingConstraints with
      | none => pure none
      | some n => checkSubjects P n (subjectsBelow position chain)) = .ok none →
      ∀ n, constraints.namingConstraints = some n → ∀ i es, i < position → chain[i]? = some es →
        checkNamingConstraints P n (subjectOf es) = .ok true := by
    intro h n hn i es hi hes
    rw [hn] at h
    refine checkSubjects_eq_none.mp h (i, subjectOf es) ?_
    refine List.mem_map.mpr ⟨(es, i), ?_, rfl⟩
    rw [List.mem_zipIdx_iff_getElem?, List.getElem?_take_of_lt hi]
    exact hes
  cases hm : constraints.maxPathLength with
  | none =>
    rw [hm] at h
    exact ⟨by simp, hnaming h⟩
  | some m =>
    rw [hm] at h
    simp only at h
    split at h
    · simp [pure, Except.pure] at h
    · rename_i hc
      refine ⟨fun m' hm' => ?_, hnaming h⟩
      obtain rfl := Option.some.inj hm'
      simpa [checkMaxPathLength] using hc

end CheckLemmas

end OidFed
