import OidFed.Policy.Merge

/-!
# Applying a policy to metadata (`apply.ts`)

* `applyParameter`: the operators of one parameter, in their order. `scope` is a space-separated
  string that the operators see as an array.
* `applyMetadataPolicy`: superior metadata written over the leaf's, then every parameter of the
  policy. An entity type of the policy that the metadata lacks is created.
* `applyMetadataPolicy_parameter`: the result read parameter by parameter.

A parameter that an operator sets to `undefined` counts as absent.
-/

namespace OidFed

open Js

abbrev EntityMetadata := Dict String Json

abbrev FederationMetadata := Dict String EntityMetadata

/-- Failure of metadata against a policy. -/
def policyViolation {α : Type} (description : String) : Except Stop α :=
  .error (.fail (internalError .MetadataPolicyViolation description))

/-- `scope.split(" ").filter(Boolean)`. -/
def normalizeScope (scope : String) : List String := (Json.splitText ' ' scope).filter (· ≠ "")

section Apply

-- `String(n)` of a number
variable (numberText : Rat → String)

/-- `values.join(" ")`. -/
def denormalizeScope (values : List Json) : Option String := Json.join numberText " " values

/-- An operator as it is applied: its name, its value and its definition. -/
abbrev OperatorEntry := String × Json × PolicyOperatorDefinition

/-- The known operators of a parameter, in the order of application. -/
def sortedOps (lookup : OperatorLookup) (opEntries : ParameterPolicy) : List OperatorEntry :=
  (opEntries.members.filterMap fun e => (lookup.get? e.1).map fun d => (e.1, e.2, d)).insertionSort
    fun a b => a.2.2.order ≤ b.2.2.order

def applyOperator (path : String) (cur : Option Json) (op : OperatorEntry) :
    Except Stop (Option Json) :=
  match op.2.2.apply cur op.2.1 with
  | .error e => policyViolation s!"Policy violation for {path} (operator '{op.1}'): {e}"
  | .ok result =>
    if result.removed then .ok none
    else if result.value = some .null then
      policyViolation
        s!"Policy violation for {path} (operator '{op.1}'): operator output must not be null"
    else .ok result.value

def applyOperators (path : String) (ops : List OperatorEntry) (cur : Option Json) :
    Except Stop (Option Json) :=
  ops.foldlM (applyOperator path) cur

/-- A name of the policy that the lookup inherits leads out of the registry. -/
def readsBuiltin (lookup : OperatorLookup) (opEntries : ParameterPolicy) : Bool :=
  opEntries.keys.any fun name => (lookup.get? name).isNone && inherited name

/-- One parameter of the policy applied to the metadata parameter `cur`. -/
def applyParameter (lookup : OperatorLookup) (entityType paramName : String)
    (opEntries : ParameterPolicy) (cur : Option Json) : Except Stop (Option Json) :=
  let path := s!"{entityType}.{paramName}"
  let ops := sortedOps lookup opEntries
  if readsBuiltin lookup opEntries then .error .outside
  else
    match readOr cur paramName with
    | .builtin _ => if ops.isEmpty then .ok cur else .error .outside
    | _ =>
      match cur with
      | some (.str scope) =>
        if paramName = "scope" then do
          let value ← applyOperators path ops (some (.arr ((normalizeScope scope).map .str)))
          match value with
          | some (.arr values) =>
            match denormalizeScope numberText values with
            | some text => return some (.str text)
            | none => .error .throws
          | value => return value
        else applyOperators path ops cur
      | cur => applyOperators path ops cur

def applyEntityType (lookup : OperatorLookup) (entityType : String)
    (paramPolicies : EntityTypePolicy) (cur : Option EntityMetadata) :
    Except Stop (Option EntityMetadata) :=
  let apply (entityMetadata : EntityMetadata) : Except Stop (Option EntityMetadata) := do
    return some (← Dict.updateM (applyParameter numberText lookup entityType)
      paramPolicies.members entityMetadata)
  match readOr cur entityType with
  | .own entityMetadata => apply entityMetadata
  | .undefined => apply .empty
  | .builtin _ =>
    if paramPolicies.members.all fun p => (sortedOps lookup p.2).isEmpty &&
      !readsBuiltin lookup p.2 then return cur
    else .error .outside

/-- `target[param] = value`. A member `__proto__` that is not there is a setter: it takes an object
for the prototype and ignores any other value. -/
def assignMember (target : EntityMetadata) (p : String × Json) : Except Stop EntityMetadata :=
  if p.1 = "__proto__" ∧ target.get? "__proto__" = none then
    if p.2.isObject || p.2.isArray || p.2.isNull then .error .outside else .ok target
  else .ok (target.set p.1 p.2)

/-- `Object.assign(target, params)`. -/
def assignMembers (params target : EntityMetadata) : Except Stop EntityMetadata :=
  params.members.foldlM assignMember target

/-- Members that are assigned one by one are set, those under `__proto__` apart. -/
theorem assignMembers_get? {l : List (String × Json)} {d d' e : EntityMetadata}
    (h : l.foldlM assignMember d = .ok d') {k : String} (hk : k ≠ "__proto__")
    (hd : d.get? k = e.get? k) : d'.get? k = (l.foldl (fun d p => d.set p.1 p.2) e).get? k := by
  induction l generalizing d e with
  | nil =>
    obtain rfl := Except.ok.inj h
    exact hd
  | cons p rest ih =>
    rw [List.foldlM_cons] at h
    obtain ⟨d₁, hp, hrest⟩ := bind_eq_ok.mp h
    refine ih hrest ?_
    unfold assignMember at hp
    split at hp
    · rename_i hproto
      split at hp
      · simp at hp
      · obtain rfl := Except.ok.inj hp
        rw [Dict.get?_set_ne _ _ (hproto.1 ▸ hk), hd]
    · obtain rfl := Except.ok.inj hp
      rw [Dict.get?_set, Dict.get?_set, hd]

/-- Where there is no member `__proto__`, no assignment makes one, or sets the prototype. -/
theorem assignMembers_proto {l : List (String × Json)} {d d' : EntityMetadata}
    (h : l.foldlM assignMember d = .ok d') (hd : d.get? "__proto__" = none) :
    d'.get? "__proto__" = none ∧
      ∀ v, ("__proto__", v) ∈ l → (v.isObject || v.isArray || v.isNull) = false := by
  induction l generalizing d with
  | nil =>
    obtain rfl := Except.ok.inj h
    exact ⟨hd, by simp⟩
  | cons p rest ih =>
    rw [List.foldlM_cons] at h
    obtain ⟨d₁, hp, hrest⟩ := bind_eq_ok.mp h
    unfold assignMember at hp
    split at hp
    · rename_i hproto
      split at hp
      · simp at hp
      · rename_i hprim
        obtain rfl := Except.ok.inj hp
        obtain ⟨hnone, hall⟩ := ih hrest hd
        refine ⟨hnone, fun v hv => ?_⟩
        rcases List.mem_cons.mp hv with rfl | hv
        · simpa using hprim
        · exact hall v hv
    · rename_i hproto
      obtain rfl := Except.ok.inj hp
      have hne : p.1 ≠ "__proto__" := fun he => hproto ⟨he, hd⟩
      obtain ⟨hnone, hall⟩ := ih hrest (by rw [Dict.get?_set_ne _ _ (Ne.symm hne), hd])
      refine ⟨hnone, fun v hv => ?_⟩
      rcases List.mem_cons.mp hv with rfl | hv
      · exact absurd rfl hne
      · exact hall v hv

/-- An entity type of the superior's metadata written over the leaf's. -/
def overrideEntityType (entityType : String) (params : EntityMetadata)
    (cur : Option EntityMetadata) : Except Stop (Option EntityMetadata) :=
  match readOr cur entityType with
  | .own entityResult => do return some (← assignMembers params entityResult)
  | .undefined => do return some (← assignMembers params .empty)
  | .builtin _ => if params.members.isEmpty then return cur else .error .outside

/-- Apply a resolved metadata policy to federation metadata. -/
def applyMetadataPolicy (metadata : FederationMetadata) (policy : ResolvedMetadataPolicy)
    (superiorMetadataOverride : Option FederationMetadata := none)
    (options : MetadataPolicyOptions := {}) : Except Stop FederationMetadata := do
  let lookup ← buildOperatorLookup options
  let result ← match superiorMetadataOverride with
    | none => .ok metadata
    | some superior => Dict.updateM overrideEntityType superior.members metadata
  Dict.updateM (applyEntityType numberText lookup) policy.members result

/-! ## One parameter at a time -/

/-- A parameter of some metadata. -/
def metadataParameter (metadata : FederationMetadata) (entityType paramName : String) :
    Option Json :=
  (metadata.get? entityType).bind fun params => params.get? paramName

/-- The application of what the policy says on a parameter, if anything. -/
def ApplyStep (lookup : OperatorLookup) (entityType paramName : String)
    (stated : Option ParameterPolicy) (before after : Option Json) : Prop :=
  match stated with
  | none => after = before
  | some opEntries =>
    applyParameter numberText lookup entityType paramName opEntries before = .ok after

/-- The application of what the policy says on an entity type, if anything. -/
def ApplyEntityTypeStep (lookup : OperatorLookup) (entityType : String)
    (stated : Option EntityTypePolicy) (before after : Option EntityMetadata) : Prop :=
  match stated with
  | none => after = before
  | some paramPolicies =>
    applyEntityType numberText lookup entityType paramPolicies before = .ok after

variable {numberText}

theorem applyMetadataPolicy_eq_ok {metadata result : FederationMetadata}
    {policy : ResolvedMetadataPolicy} {options : MetadataPolicyOptions} :
    applyMetadataPolicy numberText metadata policy none options = .ok result ↔
      ∃ lookup, buildOperatorLookup options = .ok lookup ∧
        Dict.updateM (applyEntityType numberText lookup) policy.members metadata = .ok result := by
  simp only [applyMetadataPolicy, bind_eq_ok]
  constructor
  · rintro ⟨lookup, hl, d, hd, h⟩
    obtain rfl := Except.ok.inj hd
    exact ⟨lookup, hl, h⟩
  · rintro ⟨lookup, hl, h⟩
    exact ⟨lookup, hl, metadata, rfl, h⟩

theorem applied_entityType {lookup : OperatorLookup} {metadata result : FederationMetadata}
    {policy : ResolvedMetadataPolicy}
    (h : Dict.updateM (applyEntityType numberText lookup) policy.members metadata = .ok result)
    (entityType : String) :
    ApplyEntityTypeStep numberText lookup entityType (policy.get? entityType)
      (metadata.get? entityType) (result.get? entityType) := by
  obtain ⟨hstep, hother⟩ := Dict.updateM_get? policy.nodup h
  cases hp : policy.get? entityType with
  | none => exact hother _ ((policy.get?_eq_none_iff entityType).mp hp)
  | some ps => exact hstep (entityType, ps) ((policy.get?_eq_some_iff entityType ps).mp hp)

/-- An entity type is created by the application, unless its name is inherited. -/
theorem applyEntityType_isSome {lookup : OperatorLookup} {entityType : String}
    {params : EntityTypePolicy} {cur after : Option EntityMetadata}
    (h : applyEntityType numberText lookup entityType params cur = .ok after) :
    after.isSome ↔ cur.isSome ∨ inherited entityType = false := by
  have hsome : ∀ cur' : EntityMetadata,
      (do return some (← Dict.updateM (applyParameter numberText lookup entityType) params.members
        cur')) = Except.ok (ε := Stop) after → after.isSome := by
    intro cur' h
    obtain ⟨d, -, hafter⟩ := bind_eq_ok.mp h
    simp [← Except.ok.inj hafter]
  cases cur with
  | some cur => simpa using hsome cur h
  | none =>
    cases hi : inherited entityType with
    | false =>
      unfold applyEntityType at h
      rw [readOr_of_not_inherited _ hi] at h
      simpa using hsome .empty h
    | true =>
      obtain ⟨b, hb⟩ := Option.isSome_iff_exists.mp hi
      simp only [applyEntityType, readOr, hb] at h
      split at h
      · simp [← Except.ok.inj h]
      · simp at h

/-- The entity types after the application. -/
theorem applied_entityType_isSome {lookup : OperatorLookup} {metadata result : FederationMetadata}
    {policy : ResolvedMetadataPolicy}
    (h : Dict.updateM (applyEntityType numberText lookup) policy.members metadata = .ok result)
    (entityType : String) :
    (result.get? entityType).isSome ↔ (metadata.get? entityType).isSome ∨
      (policy.get? entityType).isSome ∧ inherited entityType = false := by
  have hstep := applied_entityType h entityType
  cases hp : policy.get? entityType with
  | none =>
    rw [hp] at hstep
    rw [show result.get? entityType = metadata.get? entityType from hstep]
    simp
  | some params =>
    rw [hp] at hstep
    rw [applyEntityType_isSome hstep]
    simp

/-- Nothing is done to an absent parameter by a policy without known operators. -/
theorem applyParameter_none {lookup : OperatorLookup} {entityType paramName : String}
    {opEntries : ParameterPolicy} (hs : sortedOps lookup opEntries = [])
    (hb : readsBuiltin lookup opEntries = false) :
    applyParameter numberText lookup entityType paramName opEntries none = .ok none := by
  simp only [applyParameter, hb, hs]
  cases hr : readOr (none : Option Json) paramName <;> rfl

theorem ApplyEntityTypeStep.parameter {lookup : OperatorLookup} {entityType : String}
    {stated : Option EntityTypePolicy} {before after : Option EntityMetadata}
    (h : ApplyEntityTypeStep numberText lookup entityType stated before after)
    (paramName : String) :
    ApplyStep numberText lookup entityType paramName (stated.bind (·.get? paramName))
      (before.bind (·.get? paramName)) (after.bind (·.get? paramName)) := by
  cases stated with
  | none =>
    obtain rfl : after = before := h
    rfl
  | some ps =>
    have happly : ∀ cur : EntityMetadata, cur.get? paramName = before.bind (·.get? paramName) →
        (do return some (← Dict.updateM (applyParameter numberText lookup entityType) ps.members
          cur)) = Except.ok (ε := Stop) after →
        ApplyStep numberText lookup entityType paramName (ps.get? paramName)
          (before.bind (·.get? paramName)) (after.bind (·.get? paramName)) := by
      intro cur hcur hok
      obtain ⟨d, hd, hafter⟩ := bind_eq_ok.mp hok
      obtain rfl : some d = after := Except.ok.inj hafter
      obtain ⟨hstep, hother⟩ := Dict.updateM_get? ps.nodup hd
      rw [← hcur]
      cases hp : ps.get? paramName with
      | none => exact hother _ ((ps.get?_eq_none_iff paramName).mp hp)
      | some ops => exact hstep (paramName, ops) ((ps.get?_eq_some_iff paramName ops).mp hp)
    simp only [ApplyEntityTypeStep, applyEntityType] at h
    cases before with
    | some cur => exact happly cur rfl h
    | none =>
      unfold readOr at h
      cases hb : objectPrototype.lookup entityType with
      | none => rw [hb] at h; exact happly .empty rfl h
      | some b =>
        rw [hb] at h
        simp only at h
        split at h
        · rename_i hall
          obtain rfl : (none : Option EntityMetadata) = after := Except.ok.inj h
          cases hp : ps.get? paramName with
          | none => simp [ApplyStep, hp]
          | some ops =>
            have hops := List.all_eq_true.mp hall _ ((ps.get?_eq_some_iff paramName ops).mp hp)
            simp only [Bool.and_eq_true, List.isEmpty_iff, Bool.not_eq_true'] at hops
            simp only [Option.bind_some, Option.bind_none, hp]
            exact applyParameter_none hops.1 hops.2
        · simp at h

/-- The result of an application, parameter by parameter. -/
theorem applied_parameter {lookup : OperatorLookup} {metadata result : FederationMetadata}
    {policy : ResolvedMetadataPolicy}
    (h : Dict.updateM (applyEntityType numberText lookup) policy.members metadata = .ok result)
    (entityType paramName : String) :
    ApplyStep numberText lookup entityType paramName (parameterPolicy policy entityType paramName)
      (metadataParameter metadata entityType paramName)
      (metadataParameter result entityType paramName) :=
  (applied_entityType h entityType).parameter paramName

end Apply

end OidFed
