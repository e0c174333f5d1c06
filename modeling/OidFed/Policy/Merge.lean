import OidFed.Lib.Pipeline
import OidFed.Policy.Custom

/-!
# Merging the policies of a chain (`merge.ts`)

* `PolicyStatement`: what `resolveMetadataPolicy` reads of a Subordinate Statement. Its policy is
  an object of objects of objects: `validateMetadataPolicyShape` rejects every other shape before
  the merge.
* `resolveMetadataPolicy`: statements come leaf first, the merge goes from the Trust Anchor down.
* `ParameterStep`: what one statement does to one parameter. `mergeStatement_parameter` reads a
  merged statement parameter by parameter, and `resolveMetadataPolicy_induct` carries an
  invariant of one parameter through the whole chain.
-/

namespace OidFed

open Js

/-- Operators of a parameter, by name. -/
abbrev ParameterPolicy := Dict String Json

abbrev EntityTypePolicy := Dict String ParameterPolicy

abbrev ResolvedMetadataPolicy := Dict String EntityTypePolicy

structure PolicyStatement where
  metadataPolicy : Option ResolvedMetadataPolicy := none
  metadataPolicyCrit : List String := []

abbrev OperatorLookup := Dict String PolicyOperatorDefinition

/-- The check of one member of `metadata_policy_crit`. -/
def checkCritical (lookup : OperatorLookup) (critOp : String) : Except Stop Unit :=
  if critOp ∈ standardOperatorNames then
    policyError s!"metadata_policy_crit must not list standard metadata policy operator '{critOp}'"
  else
    match lookup.read critOp with
    | .undefined => policyError s!"Unknown critical metadata policy operator: '{critOp}'"
    | _ => .ok ()

/-- One operator of a statement merged into the operator `cur` merged so far. -/
def mergeOperator (lookup : OperatorLookup) (path opName : String) (opValue : Json)
    (cur : Option Json) : Except Stop (Option Json) :=
  match lookup.read opName with
  | .undefined => .ok cur
  -- what is inherited under the name has no `merge` to call
  | .builtin _ => .error .throws
  | .own opDef =>
    match validateStandardPolicyOperatorConfiguration opName opValue with
    | some configError => policyError s!"Invalid '{opName}' operator for {path}: {configError}"
    | none =>
      match readOr cur opName with
      | .undefined => .ok (some opValue)
      | .builtin _ => .error .outside
      | .own existing =>
        match opDef.merge existing opValue with
        | .error e => policyError s!"Failed to merge '{opName}' operator for {path}: {e}"
        | .ok v => .ok (some v)

/-- `mergeOperator` where the merged parameter is a member of `Object.prototype`. -/
def mergeOperatorOutside (lookup : OperatorLookup) (path opName : String) (opValue : Json) :
    Except Stop Unit :=
  match lookup.read opName with
  | .undefined => .ok ()
  | .builtin _ => .error .throws
  | .own _ =>
    match validateStandardPolicyOperatorConfiguration opName opValue with
    | some configError => policyError s!"Invalid '{opName}' operator for {path}: {configError}"
    | none => .error .outside

/-- `defA.canCombineWith(..) && defB.canCombineWith(..)`. -/
def combine (lookup : OperatorLookup) (a b : String × Json) : Bool :=
  match lookup.get? a.1, lookup.get? b.1 with
  | some defA, some defB => defA.canCombineWith b.1 a.2 b.2 && defB.canCombineWith a.1 b.2 a.2
  -- the names are those of known operators
  | _, _ => true

/-- Every two of the operators, in their order, can stand together. -/
def checkCombinations (lookup : OperatorLookup) (path : String) :
    List (String × Json) → Except Stop Unit
  | [] => .ok ()
  | a :: rest =>
    match rest.find? fun b => !combine lookup a b with
    | some b => policyError s!"Incompatible operators '{a.1}' and '{b.1}' for {path}"
    | none => checkCombinations lookup path rest

/-- The operators of a statement merged into those of a parameter. -/
def mergeOperators (lookup : OperatorLookup) (path : String) (opEntries : ParameterPolicy)
    (mergedParam : ParameterPolicy) : Except Stop (Option ParameterPolicy) := do
  let mergedParam ← Dict.updateM (mergeOperator lookup path) opEntries.members mergedParam
  checkCombinations lookup path mergedParam.members
  return some mergedParam

/-- One parameter of a statement merged into the parameter `cur` merged so far. -/
def mergeParameter (lookup : OperatorLookup) (entityType paramName : String)
    (opEntries : ParameterPolicy) (cur : Option ParameterPolicy) :
    Except Stop (Option ParameterPolicy) :=
  let path := s!"{entityType}.{paramName}"
  match readOr cur paramName with
  | .own mergedParam => mergeOperators lookup path opEntries mergedParam
  | .undefined => mergeOperators lookup path opEntries .empty
  | .builtin _ => do
    opEntries.members.forM fun e => mergeOperatorOutside lookup path e.1 e.2
    return cur

/-- One entity type of a statement merged into the entity type `cur` merged so far. -/
def mergeEntityType (lookup : OperatorLookup) (entityType : String)
    (paramPolicies : EntityTypePolicy) (cur : Option EntityTypePolicy) :
    Except Stop (Option EntityTypePolicy) :=
  let merge (mergedEntityType : EntityTypePolicy) : Except Stop (Option EntityTypePolicy) := do
    return some (← Dict.updateM (mergeParameter lookup entityType) paramPolicies.members
      mergedEntityType)
  match readOr cur entityType with
  | .own mergedEntityType => merge mergedEntityType
  | .undefined => merge .empty
  | .builtin _ => if paramPolicies.members.isEmpty then return cur else .error .outside

def mergeStatement (lookup : OperatorLookup) (merged : ResolvedMetadataPolicy)
    (stmt : PolicyStatement) : Except Stop ResolvedMetadataPolicy :=
  match stmt.metadataPolicy with
  | none => .ok merged
  | some policy => Dict.updateM (mergeEntityType lookup) policy.members merged

/-- Merge metadata policies from Subordinate Statements in Trust Anchor to leaf order. -/
def resolveMetadataPolicy (subordinateStatements : List PolicyStatement)
    (options : MetadataPolicyOptions := {}) : Except Stop ResolvedMetadataPolicy := do
  let lookup ← buildOperatorLookup options
  (subordinateStatements.flatMap PolicyStatement.metadataPolicyCrit).forM (checkCritical lookup)
  subordinateStatements.reverse.foldlM (mergeStatement lookup) .empty

/-! ## One parameter at a time -/

/-- What a policy says on a parameter. -/
def parameterPolicy (policy : ResolvedMetadataPolicy) (entityType paramName : String) :
    Option ParameterPolicy :=
  (policy.get? entityType).bind fun params => params.get? paramName

/-- What a statement says on an entity type. -/
def PolicyStatement.entityTypePolicy (stmt : PolicyStatement) (entityType : String) :
    Option EntityTypePolicy :=
  stmt.metadataPolicy.bind fun policy => policy.get? entityType

/-- What a statement says on a parameter. -/
def PolicyStatement.parameterPolicy (stmt : PolicyStatement) (entityType paramName : String) :
    Option ParameterPolicy :=
  (stmt.entityTypePolicy entityType).bind fun params => params.get? paramName

/-- The merge of what a statement says on a parameter, if anything. -/
def ParameterStep (lookup : OperatorLookup) (entityType paramName : String)
    (stated before after : Option ParameterPolicy) : Prop :=
  match stated with
  | none => after = before
  | some opEntries => mergeParameter lookup entityType paramName opEntries before = .ok after

/-- The merge of what a statement says on an entity type, if anything. -/
def EntityTypeStep (lookup : OperatorLookup) (entityType : String)
    (stated before after : Option EntityTypePolicy) : Prop :=
  match stated with
  | none => after = before
  | some paramPolicies => mergeEntityType lookup entityType paramPolicies before = .ok after

/-- What merging a statement's operators into a parameter gives, operator by operator. -/
theorem mergeOperators_eq_ok {lookup : OperatorLookup} {path : String}
    {opEntries cur : ParameterPolicy} {after : Option ParameterPolicy}
    (h : mergeOperators lookup path opEntries cur = .ok after) :
    ∃ ops, after = some ops ∧ checkCombinations lookup path ops.members = .ok () ∧
      (∀ k v, opEntries.get? k = some v →
        mergeOperator lookup path k v (cur.get? k) = .ok (ops.get? k)) ∧
      ∀ k, opEntries.get? k = none → ops.get? k = cur.get? k := by
  obtain ⟨ops, hops, h⟩ := bind_eq_ok.mp h
  obtain ⟨⟨⟩, hcheck, h⟩ := bind_eq_ok.mp h
  obtain ⟨hstep, hother⟩ := Dict.updateM_get? opEntries.nodup hops
  exact ⟨ops, (Except.ok.inj h).symm, hcheck,
    fun k v hk => hstep (k, v) ((opEntries.get?_eq_some_iff k v).mp hk),
    fun k hk => hother k ((opEntries.get?_eq_none_iff k).mp hk)⟩

/-! ## Names that are not inherited -/

section NotInherited

variable {lookup : OperatorLookup}

theorem mergeParameter_of_not_inherited {entityType paramName : String} {ops : ParameterPolicy}
    (h : inherited paramName = false) (cur : Option ParameterPolicy) :
    mergeParameter lookup entityType paramName ops cur =
      mergeOperators lookup s!"{entityType}.{paramName}" ops (cur.getD .empty) := by
  unfold mergeParameter
  rw [readOr_of_not_inherited _ h]
  cases cur <;> rfl

theorem mergeEntityType_of_not_inherited {entityType : String} {params : EntityTypePolicy}
    (h : inherited entityType = false) (cur : Option EntityTypePolicy) :
    mergeEntityType lookup entityType params cur = (do
      return some (← Dict.updateM (mergeParameter lookup entityType) params.members
        (cur.getD .empty))) := by
  unfold mergeEntityType
  rw [readOr_of_not_inherited _ h]
  cases cur <;> rfl

/-- An entity type is created by the merge, unless its name is inherited. -/
theorem mergeEntityType_isSome {entityType : String} {params : EntityTypePolicy}
    {cur after : Option EntityTypePolicy}
    (h : mergeEntityType lookup entityType params cur = .ok after) :
    after.isSome ↔ cur.isSome ∨ inherited entityType = false := by
  cases hi : inherited entityType with
  | false =>
    rw [mergeEntityType_of_not_inherited hi] at h
    obtain ⟨d, -, hafter⟩ := bind_eq_ok.mp h
    simp [← Except.ok.inj hafter]
  | true =>
    obtain ⟨b, hb⟩ := Option.isSome_iff_exists.mp hi
    cases cur with
    | none =>
      simp only [mergeEntityType, readOr, hb] at h
      split at h
      · simp [← Except.ok.inj h]
      · simp at h
    | some cur =>
      obtain ⟨d, -, hafter⟩ := bind_eq_ok.mp h
      simp [← Except.ok.inj hafter]

end NotInherited

/-! ## Statement by statement -/

theorem mergeStatement_entityType {lookup : OperatorLookup} {merged merged' : ResolvedMetadataPolicy}
    {stmt : PolicyStatement} (h : mergeStatement lookup merged stmt = .ok merged')
    (entityType : String) :
    EntityTypeStep lookup entityType (stmt.entityTypePolicy entityType) (merged.get? entityType)
      (merged'.get? entityType) := by
  obtain ⟨policy, crit⟩ := stmt
  cases policy with
  | none =>
    obtain rfl := Except.ok.inj h
    rfl
  | some policy =>
    obtain ⟨hstep, hother⟩ := Dict.updateM_get? policy.nodup h
    simp only [PolicyStatement.entityTypePolicy, Option.bind_some]
    cases hp : policy.get? entityType with
    | none => exact hother _ ((policy.get?_eq_none_iff entityType).mp hp)
    | some ps => exact hstep (entityType, ps) ((policy.get?_eq_some_iff entityType ps).mp hp)

/-- A parameter of an entity type that was merged. -/
theorem EntityTypeStep.parameter {lookup : OperatorLookup} {entityType : String}
    {stated before after : Option EntityTypePolicy}
    (h : EntityTypeStep lookup entityType stated before after) (paramName : String) :
    ParameterStep lookup entityType paramName (stated.bind (·.get? paramName))
      (before.bind (·.get? paramName)) (after.bind (·.get? paramName)) := by
  cases stated with
  | none =>
    obtain rfl : after = before := h
    rfl
  | some ps =>
    -- the parameters that were there before, as the merge reads them
    have hmerge : ∀ cur : EntityTypePolicy, cur.get? paramName = before.bind (·.get? paramName) →
        (do return some (← Dict.updateM (mergeParameter lookup entityType) ps.members cur)) =
          Except.ok (ε := Stop) after →
        ParameterStep lookup entityType paramName (ps.get? paramName)
          (before.bind (·.get? paramName)) (after.bind (·.get? paramName)) := by
      intro cur hcur hok
      obtain ⟨d, hd, hafter⟩ := bind_eq_ok.mp hok
      obtain rfl : some d = after := Except.ok.inj hafter
      obtain ⟨hstep, hother⟩ := Dict.updateM_get? ps.nodup hd
      rw [← hcur]
      cases hp : ps.get? paramName with
      | none => exact hother _ ((ps.get?_eq_none_iff paramName).mp hp)
      | some ops => exact hstep (paramName, ops) ((ps.get?_eq_some_iff paramName ops).mp hp)
    simp only [EntityTypeStep, mergeEntityType] at h
    cases before with
    | some cur => exact hmerge cur rfl h
    | none =>
      unfold readOr at h
      cases hb : objectPrototype.lookup entityType with
      | none => rw [hb] at h; exact hmerge .empty rfl h
      | some b =>
        rw [hb] at h
        simp only at h
        split at h
        · rename_i hempty
          obtain rfl : (none : Option EntityTypePolicy) = after := Except.ok.inj h
          have hnone : ps.get? paramName = none := by
            rw [Dict.get?_eq_none_iff, Dict.keys, List.isEmpty_iff.mp hempty]
            simp
          simp [hnone, ParameterStep]
        · simp at h

theorem mergeStatement_parameter {lookup : OperatorLookup} {merged merged' : ResolvedMetadataPolicy}
    {stmt : PolicyStatement} (h : mergeStatement lookup merged stmt = .ok merged')
    (entityType paramName : String) :
    ParameterStep lookup entityType paramName (stmt.parameterPolicy entityType paramName)
      (parameterPolicy merged entityType paramName)
      (parameterPolicy merged' entityType paramName) :=
  (mergeStatement_entityType h entityType).parameter paramName

/-- The parts of a successful merge. -/
theorem resolveMetadataPolicy_eq_ok {stmts : List PolicyStatement} {options : MetadataPolicyOptions}
    {merged : ResolvedMetadataPolicy} :
    resolveMetadataPolicy stmts options = .ok merged ↔
      ∃ lookup, buildOperatorLookup options = .ok lookup ∧
        (stmts.flatMap PolicyStatement.metadataPolicyCrit).forM (checkCritical lookup) = .ok () ∧
        stmts.foldrM (fun stmt merged => mergeStatement lookup merged stmt) .empty = .ok merged := by
  simp only [resolveMetadataPolicy, bind_eq_ok, List.foldlM_reverse]
  constructor
  · rintro ⟨lookup, hl, ⟨⟩, hc, hf⟩
    exact ⟨lookup, hl, hc, hf⟩
  · rintro ⟨lookup, hl, hc, hf⟩
    exact ⟨lookup, hl, (), hc, hf⟩

/-- The entity types of the merged policies are those stated, as far as their names are not
inherited. -/
theorem resolveMetadataPolicy_entityType {stmts : List PolicyStatement}
    {options : MetadataPolicyOptions} {merged : ResolvedMetadataPolicy}
    (h : resolveMetadataPolicy stmts options = .ok merged) (entityType : String) :
    (merged.get? entityType).isSome ↔ inherited entityType = false ∧
      ∃ stmt ∈ stmts, (stmt.entityTypePolicy entityType).isSome := by
  obtain ⟨lookup, -, -, hfold⟩ := resolveMetadataPolicy_eq_ok.mp h
  refine Pipeline.foldrM_induct (fun done (merged : ResolvedMetadataPolicy) =>
    (merged.get? entityType).isSome ↔ inherited entityType = false ∧
      ∃ stmt ∈ done, (stmt.entityTypePolicy entityType).isSome) (by simp)
    (fun stmt done before after hinv hok => ?_) hfold
  have hstep := mergeStatement_entityType hok entityType
  cases hstated : stmt.entityTypePolicy entityType with
  | none =>
    rw [hstated] at hstep
    rw [show after.get? entityType = before.get? entityType from hstep, hinv]
    simp [hstated]
  | some params =>
    rw [hstated] at hstep
    rw [mergeEntityType_isSome hstep, hinv]
    exact ⟨fun h => ⟨h.elim And.left id, stmt, List.mem_cons_self, by simp [hstated]⟩,
      fun h => .inr h.1⟩

/-- What holds of a parameter before the first statement, and passes from each merged statement
to the next, holds after the last. -/
theorem resolveMetadataPolicy_induct {lookup : OperatorLookup} {entityType paramName : String}
    (Inv : List PolicyStatement → Option ParameterPolicy → Prop) (hinit : Inv [] none)
    (hstep : ∀ stmt done before after, Inv done before →
      ParameterStep lookup entityType paramName (stmt.parameterPolicy entityType paramName) before
        after → Inv (stmt :: done) after)
    {stmts : List PolicyStatement} {merged : ResolvedMetadataPolicy}
    (h : stmts.foldrM (fun stmt merged => mergeStatement lookup merged stmt) .empty = .ok merged) :
    Inv stmts (parameterPolicy merged entityType paramName) :=
  Pipeline.foldrM_induct (fun done merged => Inv done (parameterPolicy merged entityType paramName))
    (show Inv [] (parameterPolicy .empty entityType paramName) from hinit)
    (fun stmt done _ _ hinv hok => hstep stmt done _ _ hinv
      (mergeStatement_parameter hok entityType paramName)) h

end OidFed
