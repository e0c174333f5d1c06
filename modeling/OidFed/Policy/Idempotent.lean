import OidFed.Policy.Conflicts
import OidFed.Policy.Outcome

/-!
# Applying a policy twice

* `applied_again_iff`: a policy without `scope` leaves the metadata that it has made exactly when
  what `add` asks for stays (`AddStays`) in every parameter.
* `addStays_of_equivOn`: that is so where `deepEqual` is transitive.
* `add_after_removal`: metadata with an object that stands for an element of `add`, and is taken
  away by `subset_of`.
-/

namespace OidFed

open Js UpTo PolicyOperator

variable {numberText : Rat → String} {U : Set Json}

/-- An object that stands for an element of `add` stays with it where `deepEqual` is transitive. -/
theorem addStays_of_equivOn (he : EquivOn deepEqual isComparableElement U) {ops : ParameterPolicy}
    (hc : Combined U ops) {c : Option Json} (hdrawn : ParameterDrawn U c)
    (hcomp : ∀ l, c = some (.arr l) → ∀ x ∈ l, isComparableElement x = true) : AddStays ops c := by
  intro l a s _ hl ha hs x hx
  obtain ⟨a, rfl, hmem⟩ := items_of_add hc ha
  obtain ⟨op, hname, hvalued⟩ := hc.known _ s hs
  obtain rfl : op = subsetOf := text_injective hname
  obtain ⟨k, rfl, hk⟩ := hvalued.array rfl
  obtain ⟨y, hy, hyx⟩ := covers_union_right (l := l) (fun x hx => he.refl x (hmem x hx).1) x hx
  obtain ⟨z, hz, hxz⟩ := add_within hc ha hs x hx
  have hyU : y ∈ U ∧ isComparableElement y = true :=
    (mem_union hy).elim (fun hy => ⟨hdrawn _ hl y hy, hcomp l hl y hy⟩) (hmem y)
  exact ⟨y, hy, hyx, z, hz, he.trans y hyU.1 x (hmem x hx).1 z (hk z hz).1 hyU.2 (hmem x hx).2
    (hk z hz).2 hyx hxz⟩

section Again

variable {stmts : List PolicyStatement} {policy : ResolvedMetadataPolicy}
  {metadata result : FederationMetadata} {entityType paramName : String} {ops : ParameterPolicy}

/-- One parameter of the policy. -/
theorem applyParameter_again_iff (hc : Combined U ops) (hrefl : ∀ x ∈ U, deepEqual x x = true)
    (hname : inherited paramName = false) (hscope : paramName ≠ "scope") {c r : Option Json}
    (h : applyParameter numberText operators entityType paramName ops c = .ok r) :
    applyParameter numberText operators entityType paramName ops r = .ok r ↔ AddStays ops c := by
  rw [applyParameter_eq hc hname hscope] at h ⊢
  exact run_again_iff hc hrefl h

theorem metadataParameter_get? {params : EntityMetadata}
    (h : result.get? entityType = some params) (paramName : String) :
    metadataParameter result entityType paramName = params.get? paramName := by
  rw [metadataParameter, h]
  rfl

/-- An entity type whose parameters are all left alone is left alone. -/
theorem applyEntityType_again {paramPolicies : EntityTypePolicy}
    {cur : Option EntityMetadata} (hstep : applyEntityType numberText operators entityType
      paramPolicies cur = .ok (result.get? entityType))
    (hparams : ∀ paramName ops, paramPolicies.get? paramName = some ops →
      applyParameter numberText operators entityType paramName ops
        (metadataParameter result entityType paramName) =
          .ok (metadataParameter result entityType paramName)) :
    applyEntityType numberText operators entityType paramPolicies (result.get? entityType) =
      .ok (result.get? entityType) := by
  cases hr : result.get? entityType with
  | some params =>
    have hfixed : Dict.updateM (applyParameter numberText operators entityType)
        paramPolicies.members params = .ok params := by
      refine Dict.updateM_fixed ?_
      rintro ⟨paramName, ops⟩ hmem
      have hparam := hparams paramName ops (Dict.get?_of_mem hmem)
      rwa [metadataParameter_get? hr] at hparam
    simp only [applyEntityType, readOr, hfixed]
    rfl
  | none =>
    -- nothing was made of an entity type that was not there
    rw [hr] at hstep
    have hnone : cur = none := by
      have hsome := (applyEntityType_isSome hstep).not
      simpa using (not_or.mp (hsome.mp (by simp))).1
    rw [hnone] at hstep
    exact hstep

/-- The policy of a chain leaves the metadata that it has made exactly when in every parameter what
`add` asks for stays. -/
theorem applied_again_iff (hparsed : ∀ stmt ∈ stmts, stmt.Drawn {a | Parsed a})
    (hmerge : resolveMetadataPolicy stmts = .ok policy)
    (hscope : ∀ entityType, parameterPolicy policy entityType "scope" = none)
    (happly : applyMetadataPolicy numberText metadata policy = .ok result) :
    applyMetadataPolicy numberText result policy = .ok result ↔
      ∀ entityType paramName ops, parameterPolicy policy entityType paramName = some ops →
        AddStays ops (metadataParameter metadata entityType paramName) := by
  have hrefl : ∀ x ∈ {a | Parsed a}, deepEqual x x = true := fun x hx => deepEqual_refl_parsed x hx
  obtain ⟨lookup, hl, hupdate⟩ := applyMetadataPolicy_eq_ok.mp happly
  obtain rfl : operators = lookup := Except.ok.inj (buildOperatorLookup_standard.symm.trans hl)
  -- the first application, and what it says on the second, parameter by parameter
  have hparam : ∀ entityType paramName ops,
      parameterPolicy policy entityType paramName = some ops →
        (applyParameter numberText operators entityType paramName ops
          (metadataParameter result entityType paramName) =
            .ok (metadataParameter result entityType paramName) ↔
          AddStays ops (metadataParameter metadata entityType paramName)) := by
    intro entityType paramName ops hops
    have hne : paramName ≠ "scope" := by
      rintro rfl
      rw [hscope] at hops
      cases hops
    have hfirst := applied_parameter hupdate entityType paramName
    rw [hops] at hfirst
    exact applyParameter_again_iff
      ((resolveMetadataPolicy_chainInv hrefl
        (fun stmt hs => (hparsed stmt hs).at entityType paramName) hmerge).combined ops hops)
      hrefl ((traced_of_resolve hmerge hops).name rfl) hne hfirst
  constructor
  · intro hagain entityType paramName ops hops
    obtain ⟨lookup, hl, hupdate'⟩ := applyMetadataPolicy_eq_ok.mp hagain
    obtain rfl : operators = lookup := Except.ok.inj (buildOperatorLookup_standard.symm.trans hl)
    have hsecond := applied_parameter hupdate' entityType paramName
    rw [hops] at hsecond
    exact (hparam entityType paramName ops hops).mp hsecond
  · intro hstays
    refine applyMetadataPolicy_eq_ok.mpr ⟨operators, rfl, Dict.updateM_fixed ?_⟩
    rintro ⟨entityType, paramPolicies⟩ hmem
    have hget : policy.get? entityType = some paramPolicies := Dict.get?_of_mem hmem
    have hstep := applied_entityType hupdate entityType
    rw [hget] at hstep
    refine applyEntityType_again hstep fun paramName ops hops => ?_
    have hpolicy : parameterPolicy policy entityType paramName = some ops := by
      rw [parameterPolicy, hget]
      exact hops
    exact (hparam entityType paramName ops hpolicy).mpr
      (hstays entityType paramName ops hpolicy)

end Again

/-- A policy on one parameter that adds a text within those that are allowed. -/
def addsWithin : ParameterPolicy :=
  twoOperators add subsetOf (.arr [.str "ops"]) (.arr [.str "ops", .str "dev"])

theorem addsWithin_again :
    applyMetadataPolicy (fun _ => "") (onContacts (.arr [.str "dev", .str "ops"]))
      (onContacts addsWithin) = .ok (onContacts (.arr [.str "dev", .str "ops"])) := by
  have hmerge : resolveMetadataPolicy [statesTwo add subsetOf (.arr [.str "ops"])
      (.arr [.str "ops", .str "dev"])] = .ok (onContacts addsWithin) := rfl
  have happly : applyMetadataPolicy (fun _ => "") (onContacts (.arr [.str "dev", .str "idle"]))
      (onContacts addsWithin) = .ok (onContacts (.arr [.str "dev", .str "ops"])) := rfl
  have hdrawn : ∀ l : List String, DrawnFrom {a | Parsed a} (.arr (l.map .str)) := by
    intro l x hx
    obtain ⟨s, -, rfl⟩ := List.mem_map.mp hx
    exact parsed_str s
  refine (applied_again_iff (statesTwo_drawn (hdrawn ["ops"]) (hdrawn ["ops", "dev"])) hmerge
    (fun entityType => ?_) happly).mpr fun entityType paramName ops hops => ?_
  · simp only [parameterPolicy, onContacts, Dict.get?_set, Dict.get?_empty]
    split <;> rfl
  · obtain rfl := eq_of_onContacts hops
    intro l a s _ hl ha hs x hx
    obtain rfl := Option.some.inj (show some (.arr [.str "ops"]) = some a from ha)
    obtain rfl := Option.some.inj (show some (.arr [.str "ops", .str "dev"]) = some s from hs)
    obtain rfl := List.mem_singleton.mp hx
    obtain rfl := Json.arr.inj (eq_of_onContacts hl)
    exact ⟨.str "ops", by decide, by decide, .str "ops", by decide, by decide⟩

/-- A published object that stands for an element of `add` and that `subset_of` takes away: the
element is added by the second application. -/
theorem add_after_removal :
    let published : Json := .obj [("k", .obj [("length", .num 1)])]
    let added : Json := .obj [("k", .arr [.num 5])]
    let allowed : Json := .obj [("k", .obj [("0", .num 5)])]
    let policy : ResolvedMetadataPolicy :=
      onContacts (twoOperators add subsetOf (.arr [added]) (.arr [allowed]))
    resolveMetadataPolicy [statesTwo add subsetOf (.arr [added]) (.arr [allowed])] = .ok policy ∧
      applyMetadataPolicy (fun _ => "") (onContacts (.arr [published])) policy =
        .ok (onContacts (.arr [])) ∧
      applyMetadataPolicy (fun _ => "") (onContacts (.arr [])) policy =
        .ok (onContacts (.arr [added])) ∧
      onContacts (Json.arr [added]) ≠ onContacts (Json.arr []) :=
  ⟨rfl, rfl, rfl, by decide⟩

end OidFed
