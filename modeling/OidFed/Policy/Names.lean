import OidFed.Policy.Merge

/-!
# Names of a policy and names of `Object.prototype`

`OwnNames`: the merge knows the registry's and the custom operators and no others. An unknown
operator is as if absent, or fails the merge where it is critical; every entity type and
parameter stated comes out with its known operators; nothing is thrown and nothing outside the
result is written.

* `readsInherited`: the call gets to a name that is inherited from `Object.prototype`, in one of the
  four places where the source looks a name up.
* `ownNames_of_reads`: a call that does not is as it should be.
* `ownNames_iff`: of the calls that do, only those are that a policy error ends.
-/

namespace OidFed

open Js Pipeline

/-- The statement without what it says for one operator. -/
def PolicyStatement.eraseOperator (name : String) (stmt : PolicyStatement) : PolicyStatement where
  metadataPolicy := stmt.metadataPolicy.map fun policy =>
    policy.mapValues fun params => params.mapValues fun ops => ops.erase name
  metadataPolicyCrit := stmt.metadataPolicyCrit

/-- Only own members of the registry, and the custom operators, count as known. -/
structure OwnNames (stmts : List PolicyStatement) (options : MetadataPolicyOptions) : Prop where
  returns : resolveMetadataPolicy stmts options ≠ .error .throws
  inside : resolveMetadataPolicy stmts options ≠ .error .outside
  critical : ∀ stmt ∈ stmts, ∀ name ∈ stmt.metadataPolicyCrit, ¬ options.Known name →
    ∃ d, resolveMetadataPolicy stmts options =
      .error (.fail (internalError .MetadataPolicyError d))
  ignored : ∀ name, ¬ options.Known name → (∀ stmt ∈ stmts, name ∉ stmt.metadataPolicyCrit) →
    resolveMetadataPolicy (stmts.map (PolicyStatement.eraseOperator name)) options =
      resolveMetadataPolicy stmts options
  stated : ∀ merged, resolveMetadataPolicy stmts options = .ok merged → ∀ stmt ∈ stmts,
    ∀ entityType params, stmt.entityTypePolicy entityType = some params →
      (merged.get? entityType).isSome ∧ ∀ paramName ops, params.get? paramName = some ops →
        ∃ merged', parameterPolicy merged entityType paramName = some merged' ∧
          ∀ name, name ∈ merged'.keys ↔ options.Known name ∧ ∃ stmt' ∈ stmts, ∃ ops',
            stmt'.parameterPolicy entityType paramName = some ops' ∧ name ∈ ops'.keys

/-! ## The names that a call looks up -/

/-- Going through entries, a loop gets to one that is `bad`, given what stands under its key by then. -/
def reaches {β γ : Type} (bad : String → β → Option γ → Bool)
    (step : String → β → Option γ → Except Stop (Option γ)) :
    List (String × β) → Dict String γ → Bool
  | [], _ => false
  | e :: rest, d =>
    bad e.1 e.2 (d.get? e.1) ||
      match step e.1 e.2 (d.get? e.1) with
      | .ok v => reaches bad step rest (d.put e.1 v)
      | .error _ => false

section Reads

variable (lookup : OperatorLookup)

def readsOperators (path : String) (opEntries mergedParam : ParameterPolicy) : Bool :=
  reaches (fun opName _ _ => inherited opName) (mergeOperator lookup path) opEntries.members
    mergedParam

def readsParameter (entityType paramName : String) (opEntries : ParameterPolicy)
    (cur : Option ParameterPolicy) : Bool :=
  inherited paramName ||
    readsOperators lookup s!"{entityType}.{paramName}" opEntries (cur.getD .empty)

def readsEntityType (entityType : String) (paramPolicies : EntityTypePolicy)
    (cur : Option EntityTypePolicy) : Bool :=
  inherited entityType || reaches (readsParameter lookup entityType)
    (mergeParameter lookup entityType) paramPolicies.members (cur.getD .empty)

def readsStatement (merged : ResolvedMetadataPolicy) (stmt : PolicyStatement) : Bool :=
  match stmt.metadataPolicy with
  | none => false
  | some policy =>
    reaches (readsEntityType lookup) (mergeEntityType lookup) policy.members merged

/-- The statements as they are merged, from the Trust Anchor down. -/
def readsStatements : List PolicyStatement → ResolvedMetadataPolicy → Bool
  | [], _ => false
  | stmt :: rest, merged =>
    readsStatement lookup merged stmt ||
      match mergeStatement lookup merged stmt with
      | .ok merged => readsStatements rest merged
      | .error _ => false

/-- A critical operator that is known is found before what is inherited. -/
def readsCritical : List String → Bool
  | [] => false
  | critOp :: rest =>
    inherited critOp && (lookup.get? critOp).isNone ||
      match checkCritical lookup critOp with
      | .ok () => readsCritical rest
      | .error _ => false

end Reads

/-- The call looks up a name that is inherited from `Object.prototype`, before an error ends it. -/
def readsInherited (stmts : List PolicyStatement) (options : MetadataPolicyOptions) : Bool :=
  match validateCustomOperators options.customOperators with
  | .error _ => false
  | .ok () =>
    (options.customOperators.any fun op => op.name == "__proto__") ||
      match buildOperatorLookup options with
      | .error _ => false
      | .ok lookup =>
        let critical := stmts.flatMap PolicyStatement.metadataPolicyCrit
        readsCritical lookup critical ||
          match critical.forM (checkCritical lookup) with
          | .ok () => readsStatements lookup stmts.reverse .empty
          | .error _ => false

section Reaches

variable {β γ : Type} {bad : String → β → Option γ → Bool}
  {step : String → β → Option γ → Except Stop (Option γ)} {l : List (String × β)}
  {d d' : Dict String γ}

theorem reaches_eq_false (h : ∀ e ∈ l, ∀ cur, bad e.1 e.2 cur = false) :
    reaches bad step l d = false := by
  induction l generalizing d with
  | nil => rfl
  | cons e rest ih =>
    rw [reaches, h e List.mem_cons_self, Bool.false_or]
    split
    · exact ih fun x hx => h x (List.mem_cons_of_mem _ hx)
    · rfl

/-- The errors of a loop that reaches nothing bad are those of its other entries. -/
theorem reaches_errorsIn {P : Stop → Prop} (h : reaches bad step l d = false)
    (hstep : ∀ e ∈ l, ∀ cur, bad e.1 e.2 cur = false → ErrorsIn P (step e.1 e.2 cur)) :
    ErrorsIn P (Dict.updateM step l d) := by
  induction l generalizing d with
  | nil => exact .ok _
  | cons e rest ih =>
    rw [reaches, Bool.or_eq_false_iff] at h
    rw [Dict.updateM_cons]
    refine (hstep e List.mem_cons_self _ h.1).bind fun v hv => ih ?_ fun x hx =>
      hstep x (List.mem_cons_of_mem _ hx)
    have hrest := h.2
    rwa [hv] at hrest

/-- A loop that goes through has come to all of its entries. -/
theorem not_bad_of_reaches (h : reaches bad step l d = false)
    (hok : Dict.updateM step l d = .ok d') :
    ∀ e ∈ l, ∃ cur v, bad e.1 e.2 cur = false ∧ step e.1 e.2 cur = .ok v := by
  induction l generalizing d with
  | nil => simp
  | cons e rest ih =>
    rw [reaches, Bool.or_eq_false_iff] at h
    rw [Dict.updateM_cons] at hok
    obtain ⟨v, hv, hok⟩ := bind_eq_ok.mp hok
    have hrest := h.2
    rw [hv] at hrest
    intro x hx
    rcases List.mem_cons.mp hx with rfl | hx
    · exact ⟨_, v, h.1, hv⟩
    · exact ih hrest hok x hx

end Reaches

/-! ## Calls that look up no inherited name -/

/-- Errors with the code for a bad policy. -/
def IsPolicyError (s : Stop) : Prop := ∃ d, s = .fail (internalError .MetadataPolicyError d)

theorem policyError_errorsIn {α : Type} (d : String) :
    ErrorsIn IsPolicyError (policyError d : Except Stop α) := .error ⟨d, rfl⟩

section Clean

variable {lookup : OperatorLookup}

theorem mergeOperator_errorsIn {path name : String} (h : inherited name = false) (v : Json)
    (cur : Option Json) : ErrorsIn IsPolicyError (mergeOperator lookup path name v cur) := by
  unfold mergeOperator Dict.read
  rw [readOr_of_not_inherited _ h, readOr_of_not_inherited _ h]
  cases lookup.get? name with
  | none => exact .ok _
  | some opDef =>
    simp only
    split
    · exact policyError_errorsIn _
    · cases cur with
      | none => exact .ok _
      | some existing =>
        simp only
        split
        · exact policyError_errorsIn _
        · exact .ok _

theorem checkCombinations_errorsIn {path : String} (l : List (String × Json)) :
    ErrorsIn IsPolicyError (checkCombinations lookup path l) := by
  induction l with
  | nil => exact .ok _
  | cons a rest ih =>
    rw [checkCombinations]
    split
    · exact policyError_errorsIn _
    · exact ih

section NotReached

theorem mergeOperators_errorsIn {path : String} {ops cur : ParameterPolicy}
    (h : readsOperators lookup path ops cur = false) :
    ErrorsIn IsPolicyError (mergeOperators lookup path ops cur) :=
  (reaches_errorsIn h fun o _ cur ho => mergeOperator_errorsIn ho o.2 cur).bind fun _ _ =>
    (checkCombinations_errorsIn _).bind fun _ _ => .ok _

theorem mergeParameter_errorsIn {entityType paramName : String} {ops : ParameterPolicy}
    {cur : Option ParameterPolicy} (h : readsParameter lookup entityType paramName ops cur = false) :
    ErrorsIn IsPolicyError (mergeParameter lookup entityType paramName ops cur) := by
  obtain ⟨hname, hops⟩ := Bool.or_eq_false_iff.mp h
  rw [mergeParameter_of_not_inherited hname]
  exact mergeOperators_errorsIn hops

theorem mergeEntityType_errorsIn {entityType : String} {params : EntityTypePolicy}
    {cur : Option EntityTypePolicy} (h : readsEntityType lookup entityType params cur = false) :
    ErrorsIn IsPolicyError (mergeEntityType lookup entityType params cur) := by
  obtain ⟨hname, hparams⟩ := Bool.or_eq_false_iff.mp h
  rw [mergeEntityType_of_not_inherited hname]
  exact (reaches_errorsIn hparams fun p _ cur hp => mergeParameter_errorsIn hp).bind
    fun _ _ => .ok _

theorem mergeStatement_errorsIn {stmt : PolicyStatement} {merged : ResolvedMetadataPolicy}
    (h : readsStatement lookup merged stmt = false) :
    ErrorsIn IsPolicyError (mergeStatement lookup merged stmt) := by
  unfold readsStatement at h
  unfold mergeStatement
  cases hp : stmt.metadataPolicy with
  | none => exact .ok _
  | some policy =>
    rw [hp] at h
    exact reaches_errorsIn h fun t _ cur ht => mergeEntityType_errorsIn ht

theorem mergeStatements_errorsIn {stmts : List PolicyStatement} {merged : ResolvedMetadataPolicy}
    (h : readsStatements lookup stmts merged = false) :
    ErrorsIn IsPolicyError (stmts.foldlM (mergeStatement lookup) merged) := by
  induction stmts generalizing merged with
  | nil => exact .ok _
  | cons stmt rest ih =>
    rw [readsStatements, Bool.or_eq_false_iff] at h
    rw [List.foldlM_cons]
    refine (mergeStatement_errorsIn h.1).bind fun merged' hmerged => ih ?_
    have hrest := h.2
    rwa [hmerged] at hrest

end NotReached

/-- No name of the policy, in any of its three places, is inherited. -/
structure CleanPolicy (policy : ResolvedMetadataPolicy) : Prop where
  entityTypes : ∀ t ∈ policy.members, inherited t.1 = false
  parameters : ∀ t ∈ policy.members, ∀ p ∈ t.2.members, inherited p.1 = false
  operators : ∀ t ∈ policy.members, ∀ p ∈ t.2.members, ∀ o ∈ p.2.members, inherited o.1 = false

theorem readsParameter_of_clean {entityType : String} {p : String × ParameterPolicy}
    (hp : inherited p.1 = false) (hops : ∀ o ∈ p.2.members, inherited o.1 = false)
    (cur : Option ParameterPolicy) : readsParameter lookup entityType p.1 p.2 cur = false := by
  rw [readsParameter, hp, Bool.false_or]
  exact reaches_eq_false fun o ho _ => hops o ho

theorem readsStatement_of_clean {stmt : PolicyStatement}
    (h : ∀ policy, stmt.metadataPolicy = some policy → CleanPolicy policy)
    (merged : ResolvedMetadataPolicy) : readsStatement lookup merged stmt = false := by
  unfold readsStatement
  cases hp : stmt.metadataPolicy with
  | none => rfl
  | some policy =>
    have hclean := h policy hp
    refine reaches_eq_false fun t ht cur => ?_
    rw [readsEntityType, hclean.entityTypes t ht, Bool.false_or]
    exact reaches_eq_false fun p hpar cur => readsParameter_of_clean
      (hclean.parameters t ht p hpar) (hclean.operators t ht p hpar) cur

/-- A statement that is merged without looking up an inherited name has none. -/
theorem clean_of_readsStatement {stmt : PolicyStatement} {merged merged' : ResolvedMetadataPolicy}
    (h : readsStatement lookup merged stmt = false)
    (hok : mergeStatement lookup merged stmt = .ok merged') {policy : ResolvedMetadataPolicy}
    (hp : stmt.metadataPolicy = some policy) : CleanPolicy policy := by
  rw [readsStatement, hp] at h
  rw [mergeStatement, hp] at hok
  have htypes := not_bad_of_reaches h hok
  have hparams : ∀ t ∈ policy.members, ∀ p ∈ t.2.members, inherited p.1 = false ∧
      ∀ o ∈ p.2.members, inherited o.1 = false := by
    intro t ht p hpar
    obtain ⟨cur, v, hreads, hmerge⟩ := htypes t ht
    obtain ⟨hname, hreads⟩ := Bool.or_eq_false_iff.mp hreads
    rw [mergeEntityType_of_not_inherited hname] at hmerge
    obtain ⟨d, hd, -⟩ := bind_eq_ok.mp hmerge
    obtain ⟨cur', v', hreads', hmerge'⟩ := not_bad_of_reaches hreads hd p hpar
    obtain ⟨hname', hops⟩ := Bool.or_eq_false_iff.mp hreads'
    rw [mergeParameter_of_not_inherited hname'] at hmerge'
    obtain ⟨ops, hupdate, -⟩ := bind_eq_ok.mp hmerge'
    refine ⟨hname', fun o ho => ?_⟩
    obtain ⟨-, -, ho', -⟩ := not_bad_of_reaches hops hupdate o ho
    exact ho'
  exact {
    entityTypes := fun t ht => by
      obtain ⟨cur, v, hreads, -⟩ := htypes t ht
      exact (Bool.or_eq_false_iff.mp hreads).1
    parameters := fun t ht p hpar => (hparams t ht p hpar).1
    operators := fun t ht p hpar => (hparams t ht p hpar).2 }

theorem clean_of_readsStatements {stmts : List PolicyStatement}
    {merged merged' : ResolvedMetadataPolicy} (h : readsStatements lookup stmts merged = false)
    (hok : stmts.foldlM (mergeStatement lookup) merged = .ok merged') :
    ∀ stmt ∈ stmts, ∀ policy, stmt.metadataPolicy = some policy → CleanPolicy policy := by
  induction stmts generalizing merged with
  | nil => simp
  | cons stmt rest ih =>
    rw [readsStatements, Bool.or_eq_false_iff] at h
    rw [List.foldlM_cons] at hok
    obtain ⟨merged₁, hmerged, hok⟩ := bind_eq_ok.mp hok
    have hrest := h.2
    rw [hmerged] at hrest
    intro stmt' hs policy hp
    rcases List.mem_cons.mp hs with rfl | hs
    · exact clean_of_readsStatement h.1 hmerged hp
    · exact ih hrest hok stmt' hs policy hp

theorem readsStatements_of_clean {stmts : List PolicyStatement}
    (h : ∀ stmt ∈ stmts, ∀ policy, stmt.metadataPolicy = some policy → CleanPolicy policy)
    (merged : ResolvedMetadataPolicy) : readsStatements lookup stmts merged = false := by
  induction stmts generalizing merged with
  | nil => rfl
  | cons stmt rest ih =>
    rw [readsStatements, readsStatement_of_clean (h stmt List.mem_cons_self), Bool.false_or]
    split
    · exact ih (fun s hs => h s (List.mem_cons_of_mem _ hs)) _
    · rfl

theorem known_of_readsCritical {names : List String} (h : readsCritical lookup names = false)
    (hok : names.forM (checkCritical lookup) = .ok ()) :
    ∀ name ∈ names, inherited name = true → (lookup.get? name).isSome := by
  induction names with
  | nil => simp
  | cons critOp rest ih =>
    rw [readsCritical, Bool.or_eq_false_iff] at h
    change (checkCritical lookup critOp >>= fun _ => rest.forM (checkCritical lookup)) = _ at hok
    obtain ⟨⟨⟩, hcheck, hok⟩ := bind_eq_ok.mp hok
    have hrest := h.2
    rw [hcheck] at hrest
    intro name hname hi
    rcases List.mem_cons.mp hname with rfl | hname
    · simpa [hi, Option.isSome_iff_ne_none] using h.1
    · exact ih hrest hok name hname hi

theorem readsCritical_of_known {names : List String}
    (h : ∀ name ∈ names, inherited name = true → (lookup.get? name).isSome) :
    readsCritical lookup names = false := by
  induction names with
  | nil => rfl
  | cons critOp rest ih =>
    have hfirst : (inherited critOp && (lookup.get? critOp).isNone) = false := by
      cases hi : inherited critOp with
      | false => rfl
      | true => simpa using h critOp List.mem_cons_self hi
    rw [readsCritical, hfirst, Bool.false_or]
    split
    · exact ih fun name hname => h name (List.mem_cons_of_mem _ hname)
    · rfl

/-- A merged operator is there when it is known, or was there. -/
theorem mergeOperator_isSome {path name : String} {v : Json} {cur after : Option Json}
    (h : mergeOperator lookup path name v cur = .ok after) :
    after.isSome ↔ (lookup.get? name).isSome ∨ cur.isSome := by
  unfold mergeOperator Dict.read at h
  cases hl : lookup.get? name with
  | none =>
    rw [hl] at h
    simp only [readOr] at h
    cases hb : objectPrototype.lookup name with
    | none =>
      rw [hb] at h
      simp [← Except.ok.inj h]
    | some b =>
      rw [hb] at h
      simp at h
  | some opDef =>
    rw [hl] at h
    simp only [readOr] at h
    split at h
    · simp [policyError] at h
    · split at h
      · simp [← Except.ok.inj h]
      · simp at h
      · split at h
        · simp [policyError] at h
        · simp [← Except.ok.inj h]

/-- The merged operators of a parameter are the known ones stated for it. -/
def KeysStated (options : MetadataPolicyOptions) (entityType paramName : String)
    (done : List PolicyStatement) (merged : Option ParameterPolicy) : Prop :=
  match merged with
  | none => ∀ stmt ∈ done, stmt.parameterPolicy entityType paramName = none
  | some ops => ∀ name, name ∈ ops.keys ↔ options.Known name ∧ ∃ stmt ∈ done, ∃ ops',
      stmt.parameterPolicy entityType paramName = some ops' ∧ name ∈ ops'.keys

theorem keysStated_step {options : MetadataPolicyOptions}
    (hl : buildOperatorLookup options = .ok lookup) {entityType paramName : String}
    (hparam : inherited paramName = false) {stmt : PolicyStatement} {done : List PolicyStatement}
    {before after : Option ParameterPolicy}
    (hinv : KeysStated options entityType paramName done before)
    (hstep : ParameterStep lookup entityType paramName
      (stmt.parameterPolicy entityType paramName) before after) :
    KeysStated options entityType paramName (stmt :: done) after := by
  cases hs : stmt.parameterPolicy entityType paramName with
  | none =>
    rw [hs] at hstep
    obtain rfl : after = before := hstep
    cases after with
    | none => simpa [KeysStated, hs] using hinv
    | some ops => simpa [KeysStated, hs] using hinv
  | some stated =>
    rw [hs] at hstep
    rw [ParameterStep, mergeParameter_of_not_inherited hparam] at hstep
    obtain ⟨ops, rfl, -, hkeys, hother⟩ := mergeOperators_eq_ok hstep
    have hbefore : ∀ name, ((before.getD .empty).get? name).isSome ↔ options.Known name ∧
        ∃ s ∈ done, ∃ ops', s.parameterPolicy entityType paramName = some ops' ∧
          name ∈ ops'.keys := by
      intro name
      cases before with
      | none =>
        have hno : ∀ s ∈ done, s.parameterPolicy entityType paramName = none := hinv
        have : ¬ ∃ s ∈ done, ∃ ops', s.parameterPolicy entityType paramName = some ops' ∧
            name ∈ ops'.keys := by
          rintro ⟨s, hs', ops', h, -⟩
          simp [hno s hs'] at h
        simp [this]
      | some cur =>
        rw [← hinv name, Dict.mem_keys_iff, Option.getD_some, Option.isSome_iff_exists]
    intro name
    rw [Dict.mem_keys_iff, ← Option.isSome_iff_exists]
    cases hv : stated.get? name with
    | none =>
      have hnot : name ∉ stated.keys := (stated.get?_eq_none_iff name).mp hv
      rw [hother name hv, hbefore name]
      simp [hs, hnot]
    | some v =>
      have hmem : name ∈ stated.keys := (stated.mem_keys_iff name).mpr ⟨v, hv⟩
      rw [mergeOperator_isSome (hkeys name v hv), hbefore name, buildOperatorLookup_own hl]
      simp only [hs, hmem, List.mem_cons, exists_eq_or_imp, Option.some.injEq, exists_eq_left',
        true_or, and_true]
      exact ⟨fun h => h.elim id And.left, .inl⟩

end Clean

theorem checkCritical_errorsIn {lookup : OperatorLookup} (name : String) :
    ErrorsIn IsPolicyError (checkCritical lookup name) := by
  unfold checkCritical
  split
  · exact policyError_errorsIn _
  · split
    · exact policyError_errorsIn _
    · exact .ok _

/-- An unknown critical operator that is not inherited does not pass. -/
theorem checkCritical_unknown {options : MetadataPolicyOptions} {lookup : OperatorLookup}
    (hl : buildOperatorLookup options = .ok lookup) {name : String}
    (hname : inherited name = false) (hunknown : ¬ options.Known name) :
    checkCritical lookup name ≠ .ok () := by
  have hnone : lookup.get? name = none := by
    simpa using fun h => hunknown ((buildOperatorLookup_own hl name).mp h)
  have hstd : name ∉ standardOperatorNames := fun h => hunknown (.inl h)
  unfold checkCritical Dict.read
  rw [if_neg hstd, readOr_of_not_inherited _ hname, hnone]
  simp [policyError]

section OwnKeys

variable {lookup : OperatorLookup}

/-- No operator of an inherited name is merged where there is none yet. -/
theorem mergeOperator_inherited {path name : String} {v : Json} {after : Option Json}
    (h : mergeOperator lookup path name v none = .ok after) : inherited name = false := by
  by_contra hi
  obtain ⟨b, hb⟩ : ∃ b, objectPrototype.lookup name = some b :=
    Option.isSome_iff_exists.mp (Bool.not_eq_false _ ▸ hi)
  unfold mergeOperator Dict.read at h
  cases hl : lookup.get? name with
  | none => simp [hl, readOr, hb] at h
  | some opDef =>
    simp only [hl, readOr, hb] at h
    split at h <;> simp [policyError] at h

/-- After the statements `done`, the merged parameter and what was stated of it have no inherited name. -/
structure OwnKeys (entityType paramName : String) (done : List PolicyStatement)
    (merged : Option ParameterPolicy) : Prop where
  parameter : merged.isSome → inherited paramName = false
  merged : ∀ ops, merged = some ops → ∀ k, inherited k = true → ops.get? k = none
  stated : inherited paramName = false → ∀ stmt ∈ done, ∀ ops,
    stmt.parameterPolicy entityType paramName = some ops → ∀ k ∈ ops.keys, inherited k = false

theorem ownKeys_step {entityType paramName : String} {stmt : PolicyStatement}
    {done : List PolicyStatement} {before after : Option ParameterPolicy}
    (hinv : OwnKeys entityType paramName done before)
    (hstep : ParameterStep lookup entityType paramName
      (stmt.parameterPolicy entityType paramName) before after) :
    OwnKeys entityType paramName (stmt :: done) after := by
  cases hs : stmt.parameterPolicy entityType paramName with
  | none =>
    rw [hs] at hstep
    obtain rfl : after = before := hstep
    refine ⟨hinv.parameter, hinv.merged, fun hparam s hmem ops hops => ?_⟩
    rcases List.mem_cons.mp hmem with rfl | hmem
    · simp [hs] at hops
    · exact hinv.stated hparam s hmem ops hops
  | some stated =>
    rw [hs, ParameterStep] at hstep
    cases hparam : inherited paramName with
    | true =>
      -- nothing is merged under a name that is inherited
      obtain ⟨b, hb⟩ := Option.isSome_iff_exists.mp hparam
      cases before with
      | some cur => exact absurd (hinv.parameter rfl) (by simp [hparam])
      | none =>
        simp only [mergeParameter, readOr, hb] at hstep
        obtain ⟨-, -, hafter⟩ := bind_eq_ok.mp hstep
        obtain rfl := Except.ok.inj hafter
        exact ⟨by simp, by simp, by simp [hparam]⟩
    | false =>
      rw [mergeParameter_of_not_inherited hparam] at hstep
      obtain ⟨ops, rfl, -, hkeys, hother⟩ := mergeOperators_eq_ok hstep
      have hbefore : ∀ k, inherited k = true → (before.getD .empty).get? k = none := by
        intro k hk
        cases before with
        | none => rfl
        | some cur => exact hinv.merged cur rfl k hk
      have hown : ∀ k v, stated.get? k = some v → inherited k = false := by
        intro k v hv
        by_contra hk
        have hmerge := hkeys k v hv
        rw [hbefore k (by simpa using hk)] at hmerge
        exact hk (mergeOperator_inherited hmerge)
      refine ⟨fun _ => hparam, fun ops' hops' k hk => ?_, fun _ s hmem ops' hops' k hk => ?_⟩
      · obtain rfl := Option.some.inj hops'
        cases hv : stated.get? k with
        | none => rw [hother k hv, hbefore k hk]
        | some v => simp [hown k v hv] at hk
      · rcases List.mem_cons.mp hmem with rfl | hmem
        · obtain rfl := Option.some.inj (hs.symm.trans hops')
          obtain ⟨v, hv⟩ := (stated.mem_keys_iff k).mp hk
          exact hown k v hv
        · exact hinv.stated hparam s hmem ops' hops' k hk

/-- A merge that goes through has no inherited name in the parameters that it keeps. -/
theorem ownKeys_of_fold {stmts : List PolicyStatement} {merged : ResolvedMetadataPolicy}
    (h : stmts.foldrM (fun stmt merged => mergeStatement lookup merged stmt) .empty = .ok merged)
    (entityType paramName : String) :
    OwnKeys entityType paramName stmts (parameterPolicy merged entityType paramName) :=
  resolveMetadataPolicy_induct (OwnKeys entityType paramName)
    ⟨by simp, by simp, by simp⟩ (fun _ _ _ _ hinv hstep => ownKeys_step hinv hstep) h

end OwnKeys

/-! ## Operators that are not known -/

section Erase

variable {lookup : OperatorLookup} {name : String} (hname : lookup.get? name = none)
include hname

theorem read_unknown : (∃ b, lookup.read name = .builtin b) ∨ lookup.read name = .undefined := by
  unfold Dict.read readOr
  rw [hname]
  cases objectPrototype.lookup name with
  | none => exact .inr rfl
  | some b => exact .inl ⟨b, rfl⟩

/-- An unknown operator is passed over, or what is inherited under its name is called. -/
theorem mergeOperator_skips (path : String) (v : Json) (cur : Option Json) :
    mergeOperator lookup path name v cur = .error .throws ∨
      mergeOperator lookup path name v cur = .ok cur := by
  unfold mergeOperator
  rcases read_unknown hname with ⟨b, hb⟩ | hb
  · exact .inl (by rw [hb])
  · exact .inr (by rw [hb])

theorem mergeOperatorsOutside_erase (path : String) (ops : ParameterPolicy) :
    (ops.members.forM fun e => mergeOperatorOutside lookup path e.1 e.2) = .error .throws ∨
      ((ops.erase name).members.forM fun e => mergeOperatorOutside lookup path e.1 e.2) =
        ops.members.forM fun e => mergeOperatorOutside lookup path e.1 e.2 := by
  have hlist : ∀ l : List (String × Json),
      (l.forM fun e => mergeOperatorOutside lookup path e.1 e.2) = .error .throws ∨
      ((l.filter (·.1 ≠ name)).forM fun e => mergeOperatorOutside lookup path e.1 e.2) =
        l.forM fun e => mergeOperatorOutside lookup path e.1 e.2 := by
    intro l
    induction l with
    | nil => exact .inr rfl
    | cons e rest ih =>
      have hcons : ∀ rest' : List (String × Json),
          ((e :: rest').forM fun e => mergeOperatorOutside lookup path e.1 e.2) =
            (mergeOperatorOutside lookup path e.1 e.2 >>= fun _ =>
              rest'.forM fun e => mergeOperatorOutside lookup path e.1 e.2) := fun _ => rfl
      by_cases he : e.1 = name
      · rw [List.filter_cons_of_neg (by simp [he]), hcons]
        have hstep : mergeOperatorOutside lookup path e.1 e.2 = .error .throws ∨
            mergeOperatorOutside lookup path e.1 e.2 = .ok () := by
          unfold mergeOperatorOutside
          rw [he]
          rcases read_unknown hname with ⟨b, hb⟩ | hb
          · exact .inl (by rw [hb])
          · exact .inr (by rw [hb])
        rcases hstep with h | h
        · exact .inl (by rw [h]; rfl)
        · rw [h]
          exact ih
      · rw [List.filter_cons_of_pos (by simp [he]), hcons, hcons]
        cases mergeOperatorOutside lookup path e.1 e.2 with
        | error s => exact .inr rfl
        | ok u => exact ih
  exact hlist ops.members

theorem mergeOperators_erase {path : String} (ops cur : ParameterPolicy) :
    mergeOperators lookup path ops cur = .error .throws ∨
      mergeOperators lookup path (ops.erase name) cur = mergeOperators lookup path ops cur := by
  unfold mergeOperators
  rcases Dict.updateM_erase_or (mergeOperator_skips hname path) cur with h | h
  · exact .inl (by rw [h]; rfl)
  · exact .inr (by rw [h])

theorem mergeParameter_erase {entityType : String} (paramName : String) (ops : ParameterPolicy)
    (cur : Option ParameterPolicy) :
    mergeParameter lookup entityType paramName ops cur = .error .throws ∨
      mergeParameter lookup entityType paramName (ops.erase name) cur =
        mergeParameter lookup entityType paramName ops cur := by
  unfold mergeParameter
  cases readOr cur paramName with
  | own mergedParam => exact mergeOperators_erase hname ops mergedParam
  | undefined => exact mergeOperators_erase hname ops .empty
  | builtin b =>
    rcases mergeOperatorsOutside_erase hname s!"{entityType}.{paramName}" ops with h | h
    · exact .inl (by simp only [h]; rfl)
    · exact .inr (by simp only [h])

theorem mergeEntityType_erase (entityType : String) (params : EntityTypePolicy)
    (cur : Option EntityTypePolicy) :
    mergeEntityType lookup entityType params cur = .error .throws ∨
      mergeEntityType lookup entityType (params.mapValues fun ops => ops.erase name) cur =
        mergeEntityType lookup entityType params cur := by
  have hmerge : ∀ merged : EntityTypePolicy,
      (do return some (← Dict.updateM (mergeParameter lookup entityType) params.members merged)) =
          Except.error (α := Option EntityTypePolicy) Stop.throws ∨
        (do return some (← Dict.updateM (mergeParameter lookup entityType)
          (params.mapValues fun ops => ops.erase name).members merged)) =
          (do return some (← Dict.updateM (mergeParameter lookup entityType) params.members
            merged) : Except Stop (Option EntityTypePolicy)) := by
    intro merged
    rcases Dict.updateM_mapValues_or (mergeParameter_erase hname) merged with h | h
    · exact .inl (by rw [h]; rfl)
    · exact .inr (by rw [h])
  unfold mergeEntityType
  cases readOr cur entityType with
  | own mergedEntityType => exact hmerge mergedEntityType
  | undefined => exact hmerge .empty
  | builtin b =>
    have hempty : (params.mapValues fun ops => ops.erase name).members.isEmpty =
        params.members.isEmpty := by
      simp [Dict.mapValues]
    exact .inr (by simp only [hempty])

theorem mergeStatement_erase (stmt : PolicyStatement) (merged : ResolvedMetadataPolicy) :
    mergeStatement lookup merged stmt = .error .throws ∨
      mergeStatement lookup merged (stmt.eraseOperator name) = mergeStatement lookup merged stmt := by
  unfold mergeStatement PolicyStatement.eraseOperator
  cases stmt.metadataPolicy with
  | none => exact .inr rfl
  | some policy => exact Dict.updateM_mapValues_or (mergeEntityType_erase hname) merged

theorem mergeStatements_erase (stmts : List PolicyStatement) (merged : ResolvedMetadataPolicy) :
    stmts.foldlM (mergeStatement lookup) merged = .error .throws ∨
      (stmts.map (PolicyStatement.eraseOperator name)).foldlM (mergeStatement lookup) merged =
        stmts.foldlM (mergeStatement lookup) merged := by
  induction stmts generalizing merged with
  | nil => exact .inr rfl
  | cons stmt rest ih =>
    rw [List.map_cons, List.foldlM_cons, List.foldlM_cons]
    rcases mergeStatement_erase hname stmt merged with h | h
    · exact .inl (by rw [h]; rfl)
    · rw [h]
      cases mergeStatement lookup merged stmt with
      | error s => exact .inr rfl
      | ok merged' => exact ih merged'

end Erase

section Run

variable {stmts : List PolicyStatement} {options : MetadataPolicyOptions}

/-- An unknown operator is as if absent, in a call that does not throw. -/
theorem resolveMetadataPolicy_erase {name : String} (hunknown : ¬ options.Known name)
    (hreturns : resolveMetadataPolicy stmts options ≠ .error .throws) :
    resolveMetadataPolicy (stmts.map (PolicyStatement.eraseOperator name)) options =
      resolveMetadataPolicy stmts options := by
  unfold resolveMetadataPolicy at hreturns ⊢
  cases hl : buildOperatorLookup options with
  | error e => rfl
  | ok lookup =>
    have hnone : lookup.get? name = none := by
      simpa using fun h => hunknown ((buildOperatorLookup_own hl name).mp h)
    have hcrit : (stmts.map (PolicyStatement.eraseOperator name)).flatMap
        PolicyStatement.metadataPolicyCrit = stmts.flatMap PolicyStatement.metadataPolicyCrit := by
      rw [List.flatMap_map]
      rfl
    rw [hl] at hreturns
    simp only [bind, Except.bind, hcrit, ← List.map_reverse] at hreturns ⊢
    cases hcheck : (stmts.flatMap PolicyStatement.metadataPolicyCrit).forM
        (checkCritical lookup) with
    | error e => rfl
    | ok u =>
      rw [hcheck] at hreturns
      exact (mergeStatements_erase hnone stmts.reverse .empty).resolve_left hreturns

/-- A call that looks up no inherited name fails with a policy error or not at all. -/
theorem resolveMetadataPolicy_errorsIn (h : readsInherited stmts options = false) :
    ErrorsIn IsPolicyError (resolveMetadataPolicy stmts options) := by
  unfold readsInherited at h
  unfold resolveMetadataPolicy
  cases hcustom : validateCustomOperators options.customOperators with
  | error s =>
    obtain ⟨d, rfl⟩ := validateCustomOperatorsFrom_error hcustom
    refine .bind ?_ fun lookup hl => ?_
    · unfold buildOperatorLookup
      rw [hcustom]
      exact .error ⟨d, rfl⟩
    · simp [buildOperatorLookup, hcustom, bind, Except.bind] at hl
  | ok u =>
    rw [hcustom] at h
    simp only [Bool.or_eq_false_iff] at h
    obtain ⟨hproto, h⟩ := h
    refine .bind (fun s hs => buildOperatorLookup_error (by simpa using hproto) hs)
      fun lookup hl => ?_
    refine .bind (.forM fun name _ => checkCritical_errorsIn name) fun u hcrit => ?_
    rw [hl] at h
    simp only [Bool.or_eq_false_iff] at h
    have hstatements := h.2
    rw [hcrit] at hstatements
    exact mergeStatements_errorsIn hstatements

/-- The inherited names that the input uses are critical operators that it also defines. -/
structure CleanCall (stmts : List PolicyStatement) (options : MetadataPolicyOptions) : Prop where
  critical : ∀ stmt ∈ stmts, ∀ name ∈ stmt.metadataPolicyCrit, inherited name = true →
    options.Known name
  policies : ∀ stmt ∈ stmts, ∀ policy, stmt.metadataPolicy = some policy → CleanPolicy policy

theorem resolveMetadataPolicy_loops {merged : ResolvedMetadataPolicy}
    (h : resolveMetadataPolicy stmts options = .ok merged) :
    ∃ lookup, validateCustomOperators options.customOperators = .ok () ∧
      (options.customOperators.any fun op => op.name == "__proto__") = false ∧
      buildOperatorLookup options = .ok lookup ∧
      (stmts.flatMap PolicyStatement.metadataPolicyCrit).forM (checkCritical lookup) = .ok () ∧
      stmts.reverse.foldlM (mergeStatement lookup) .empty = .ok merged := by
  obtain ⟨lookup, hl, h⟩ := bind_eq_ok.mp h
  obtain ⟨⟨⟩, hcrit, hfold⟩ := bind_eq_ok.mp h
  obtain ⟨⟨⟩, hcustom, hproto⟩ := bind_eq_ok.mp hl
  refine ⟨lookup, hcustom, ?_, hl, hcrit, hfold⟩
  split at hproto
  · cases hproto
  · rename_i hany
    simpa using hany

/-- A call that goes through has come to all the names of its input. -/
theorem readsInherited_iff {merged : ResolvedMetadataPolicy}
    (h : resolveMetadataPolicy stmts options = .ok merged) :
    readsInherited stmts options = false ↔ CleanCall stmts options := by
  obtain ⟨lookup, hcustom, hproto, hl, hcrit, hfold⟩ := resolveMetadataPolicy_loops h
  have hreads : readsInherited stmts options = (readsCritical lookup
      (stmts.flatMap PolicyStatement.metadataPolicyCrit) ||
        readsStatements lookup stmts.reverse .empty) := by
    simp only [readsInherited, hcustom, hproto, hl, hcrit, Bool.false_or]
  rw [hreads, Bool.or_eq_false_iff]
  constructor
  · rintro ⟨hcritical, hstatements⟩
    refine ⟨fun stmt hs name hname hi => ?_, fun stmt hs => ?_⟩
    · exact (buildOperatorLookup_own hl name).mp (known_of_readsCritical hcritical hcrit name
        (List.mem_flatMap.mpr ⟨stmt, hs, hname⟩) hi)
    · exact clean_of_readsStatements hstatements hfold stmt (List.mem_reverse.mpr hs)
  · intro hclean
    refine ⟨readsCritical_of_known fun name hname hi => ?_,
      readsStatements_of_clean (fun stmt hs => hclean.policies stmt (List.mem_reverse.mp hs)) _⟩
    obtain ⟨stmt, hs, hname⟩ := List.mem_flatMap.mp hname
    exact (buildOperatorLookup_own hl name).mpr (hclean.critical stmt hs name hname hi)

section Stated

variable (hpolicies : ∀ stmt ∈ stmts, ∀ policy, stmt.metadataPolicy = some policy →
  CleanPolicy policy)
include hpolicies

theorem resolveMetadataPolicy_stated {merged : ResolvedMetadataPolicy}
    (hr : resolveMetadataPolicy stmts options = .ok merged) {stmt : PolicyStatement}
    (hs : stmt ∈ stmts) {entityType : String} {params : EntityTypePolicy}
    (hstated : stmt.entityTypePolicy entityType = some params) :
    (merged.get? entityType).isSome ∧ ∀ paramName ops, params.get? paramName = some ops →
      ∃ merged', parameterPolicy merged entityType paramName = some merged' ∧
        ∀ name, name ∈ merged'.keys ↔ options.Known name ∧ ∃ stmt' ∈ stmts, ∃ ops',
          stmt'.parameterPolicy entityType paramName = some ops' ∧ name ∈ ops'.keys := by
  obtain ⟨lookup, hl, -, hfold⟩ := resolveMetadataPolicy_eq_ok.mp hr
  obtain ⟨policy, hp, htype⟩ := Option.bind_eq_some_iff.mp hstated
  have hclean := hpolicies stmt hs policy hp
  have hmem := (policy.get?_eq_some_iff _ _).mp htype
  constructor
  · exact (resolveMetadataPolicy_entityType hr entityType).mpr
      ⟨hclean.entityTypes _ hmem, stmt, hs, by simp [hstated]⟩
  · intro paramName ops hops
    have hparam := hclean.parameters _ hmem (paramName, ops) ((params.get?_eq_some_iff _ _).mp hops)
    have hkeys := resolveMetadataPolicy_induct (KeysStated options entityType paramName)
      (show KeysStated options entityType paramName [] none by simp [KeysStated])
      (fun stmt done before after hinv hstep => keysStated_step hl hparam hinv hstep) hfold
    have hsome : stmt.parameterPolicy entityType paramName = some ops := by
      simp [PolicyStatement.parameterPolicy, hstated, hops]
    cases hm : parameterPolicy merged entityType paramName with
    | none =>
      rw [hm] at hkeys
      rw [hkeys stmt hs] at hsome
      simp at hsome
    | some merged' =>
      rw [hm] at hkeys
      exact ⟨merged', rfl, hkeys⟩

end Stated

/-- A call that ends with a policy error is as it should be. -/
theorem ownNames_of_policyError {d : String}
    (h : resolveMetadataPolicy stmts options =
      .error (.fail (internalError .MetadataPolicyError d))) : OwnNames stmts options where
  returns := by simp [h]
  inside := by simp [h]
  critical _ _ _ _ _ := ⟨d, h⟩
  ignored _ hunknown _ := resolveMetadataPolicy_erase hunknown (by simp [h])
  stated _ hr := by simp [h] at hr

/-- So is one that goes through and uses no inherited name. -/
theorem ownNames_of_clean {merged : ResolvedMetadataPolicy}
    (h : resolveMetadataPolicy stmts options = .ok merged) (hclean : CleanCall stmts options) :
    OwnNames stmts options where
  returns := by simp [h]
  inside := by simp [h]
  critical stmt hs name hname hunknown := by
    obtain ⟨lookup, -, -, hl, hcrit, -⟩ := resolveMetadataPolicy_loops h
    have hi : inherited name = false := by
      by_contra hi
      exact hunknown (hclean.critical stmt hs name hname (by simpa using hi))
    exact absurd (forM_eq_ok hcrit name (List.mem_flatMap.mpr ⟨stmt, hs, hname⟩))
      (checkCritical_unknown hl hi hunknown)
  ignored _ hunknown _ := resolveMetadataPolicy_erase hunknown (by simp [h])
  stated _ hr _ hs _ _ hstated := resolveMetadataPolicy_stated hclean.policies hr hs hstated

/-- A call that looks up no inherited name is as it should be. -/
theorem ownNames_of_reads (h : readsInherited stmts options = false) : OwnNames stmts options := by
  cases hr : resolveMetadataPolicy stmts options with
  | ok merged => exact ownNames_of_clean hr ((readsInherited_iff hr).mp h)
  | error s =>
    obtain ⟨d, rfl⟩ := resolveMetadataPolicy_errorsIn h s hr
    exact ownNames_of_policyError hr

/-- A call that goes through as it should uses no inherited name. -/
theorem clean_of_ownNames {merged : ResolvedMetadataPolicy}
    (h : resolveMetadataPolicy stmts options = .ok merged) (hown : OwnNames stmts options) :
    CleanCall stmts options := by
  obtain ⟨lookup, -, -, hfold⟩ := resolveMetadataPolicy_eq_ok.mp h
  refine ⟨fun stmt hs name hname _ => ?_, fun stmt hs policy hp => ?_⟩
  · by_contra hunknown
    obtain ⟨d, hd⟩ := hown.critical stmt hs name hname hunknown
    simp [h] at hd
  -- what the statement says on an entity type comes out of the merge
  have hstated : ∀ t ∈ policy.members, stmt.entityTypePolicy t.1 = some t.2 := by
    intro t ht
    simp [PolicyStatement.entityTypePolicy, hp, Dict.get?_of_mem ht]
  have hparameter : ∀ t ∈ policy.members, ∀ p ∈ t.2.members, inherited p.1 = false ∧
      ∀ o ∈ p.2.members, inherited o.1 = false := by
    intro t ht p hpar
    have hp' : t.2.get? p.1 = some p.2 := Dict.get?_of_mem hpar
    obtain ⟨merged', hmerged', -⟩ :=
      (hown.stated merged h stmt hs t.1 t.2 (hstated t ht)).2 p.1 p.2 hp'
    have hkeys := ownKeys_of_fold hfold t.1 p.1
    have hname := hkeys.parameter (by simp [hmerged'])
    have hsays : stmt.parameterPolicy t.1 p.1 = some p.2 := by
      simp [PolicyStatement.parameterPolicy, hstated t ht, hp']
    exact ⟨hname, fun o ho => hkeys.stated hname stmt hs p.2 hsays o.1
      ((p.2.mem_keys_iff o.1).mpr ⟨o.2, Dict.get?_of_mem ho⟩)⟩
  exact {
    entityTypes := fun t ht =>
      ((resolveMetadataPolicy_entityType h t.1).mp
        (hown.stated merged h stmt hs t.1 t.2 (hstated t ht)).1).1
    parameters := fun t ht p hpar => (hparameter t ht p hpar).1
    operators := fun t ht p hpar => (hparameter t ht p hpar).2 }

end Run

/-- A call that looks up no inherited name knows only own names; and so does no other call, unless a
policy error ends it. -/
theorem ownNames_iff (stmts : List PolicyStatement) (options : MetadataPolicyOptions) :
    (readsInherited stmts options = false → OwnNames stmts options) ∧
      (OwnNames stmts options → readsInherited stmts options = false ∨
        ∃ e, resolveMetadataPolicy stmts options = .error (.fail e)) := by
  refine ⟨ownNames_of_reads, fun hown => ?_⟩
  cases hr : resolveMetadataPolicy stmts options with
  | ok merged => exact .inl ((readsInherited_iff hr).mpr (clean_of_ownNames hr hown))
  | error s =>
    cases s with
    | throws => exact absurd hr hown.returns
    | outside => exact absurd hr hown.inside
    | fail e => exact .inr ⟨e, rfl⟩

/-- A statement on one operator of one parameter. -/
def stateOne (entityType paramName name : String) (v : Json) : PolicyStatement :=
  { metadataPolicy := some
      (Dict.empty.set entityType (Dict.empty.set paramName (Dict.empty.set name v))) }

/-- A critical operator `constructor` that nobody defines is accepted, an operator `toString` makes
the merge throw, and an entity type `__proto__` is merged into `Object.prototype`. -/
theorem inherited_names_accepted :
    resolveMetadataPolicy [{ metadataPolicyCrit := ["constructor"] }] = .ok .empty ∧
      resolveMetadataPolicy [stateOne "openid_relying_party" "contacts" "toString" .null] =
        .error .throws ∧
      resolveMetadataPolicy [stateOne "__proto__" "contacts" "value" .null] = .error .outside ∧
      ¬ OwnNames [{ metadataPolicyCrit := ["constructor"] }] {} := by
  refine ⟨rfl, rfl, rfl, fun hown => ?_⟩
  have hunknown : ¬ MetadataPolicyOptions.Known {} "constructor" := by
    simp [MetadataPolicyOptions.Known, standardOperatorNames]
    decide
  obtain ⟨d, hd⟩ := hown.critical _ List.mem_cons_self "constructor" (by simp) hunknown
  cases hd

/-- A critical operator that is refused comes before the inherited one that is not looked up. -/
example : readsInherited [{ metadataPolicyCrit := ["foo", "constructor"] }] {} = false := by decide

end OidFed
