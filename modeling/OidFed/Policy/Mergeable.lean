import OidFed.Policy.Strictness

/-!
# When the statements of a chain merge, and into what

* `statedValues`: what a list of statements gives one operator of a parameter.
* `MergedParameter`: a merge leaves, at each operator, the greatest lower bound of these values.
* `Mergeable`: one policy combines and is as strict as every statement.
  `resolveMetadataPolicy_isOk_iff`: the merge goes through exactly then.
* All of it for values drawn from a `ValueDomain`.
-/

namespace OidFed

open Js UpTo PolicyOperator

variable {D : ValueDomain} {entityType paramName : String}

/-- Lower bounds of a set and one more element. -/
theorem isGLB_insert_of_pair {α : Type} [Preorder α] {s : Set α} {a b m : α} (hs : IsGLB s a)
    (h : IsGLB {a, b} m) : IsGLB (insert b s) m := by
  refine (isGLB_congr ?_).mp h
  rw [lowerBounds_insert, lowerBounds_insert, lowerBounds_singleton, hs.lowerBounds_eq,
    Set.inter_comm]

/-! ## One operator -/

/-- The values that the statements give an operator of a parameter. -/
def statedValues (entityType paramName : String) (op : PolicyOperator)
    (stmts : List PolicyStatement) : List Json :=
  stmts.filterMap fun stmt => (stmt.parameterPolicy entityType paramName).bind (·.get? op.text)

/-- `m` is what the values `vs` of an operator merge into. -/
structure Loosest (D : ValueDomain) (op : PolicyOperator) (vs : List Json) (m : Json) : Prop where
  stated : vs ≠ []
  proper : 1 < vs.length → op.Proper m
  isGLB : ∃ M : OperatorValue D op, M.json = m ∧ IsGLB {v : OperatorValue D op | v.json ∈ vs} M

/-- What a merge of the values `vs` leaves at an operator. -/
def MergedValue (D : ValueDomain) (op : PolicyOperator) (vs : List Json) : Option Json → Prop
  | none => vs = []
  | some m => Loosest D op vs m

section Operator

variable {op : PolicyOperator} {vs : List Json}

theorem values_cons {v : Json} (hv : op.Valued D.values v) :
    {w : OperatorValue D op | w.json ∈ v :: vs} = insert ⟨v, hv⟩ {w | w.json ∈ vs} := by
  ext w
  obtain ⟨w, hw⟩ := w
  simp [OperatorValue.mk.injEq]

/-- A value that is as strict as all of `vs` is as strict as what they merge into. -/
theorem Loosest.le {m : Json} (h : Loosest D op vs m) {c : OperatorValue D op}
    (hc : ∀ v ∈ vs, op.Stricter c.json v) : ∃ M : OperatorValue D op, M.json = m ∧ c ≤ M := by
  obtain ⟨M, hM, hglb⟩ := h.isGLB
  exact ⟨M, hM, hglb.2 fun v hv => hc v.json hv⟩

/-- And that is as strict as each of them. -/
theorem Loosest.stricter {m : Json} (h : Loosest D op vs m) {v : Json} (hv : v ∈ vs)
    (hvalued : op.Valued D.values v) : op.Stricter m v := by
  obtain ⟨M, rfl, hglb⟩ := h.isGLB
  have hle : M ≤ ⟨v, hvalued⟩ := hglb.1 hv
  exact hle

theorem mergeOperator_next {m m' v : Json} (hm : op.allowsValue m = true)
    (hv : op.allowsValue v = true) (h : op.mergeValues m v = .ok m') (path : String) :
    mergeOperator operators path op.text v (some m) = .ok (some m') := by
  have hmerge : op.merge m v = .ok m' :=
    configured_eq_ok.mpr ⟨hm, configured_eq_ok.mpr ⟨hv, h⟩⟩
  simp [mergeOperator, Dict.read, operators_get?, readOr, (validateStandard_eq_none op v).mpr hv,
    definition, hmerge]

/-- One more value merged: it was allowed, and is accounted for. -/
theorem MergedValue.step {v : Json} {path : String} {cur after : Option Json}
    (h : MergedValue D op vs cur) (hdrawn : DrawnFrom D.values v)
    (hok : mergeOperator operators path op.text v cur = .ok after) :
    op.allowsValue v = true ∧ MergedValue D op (v :: vs) after := by
  rcases mergeOperator_standard hok with ⟨hnone, -⟩ | ⟨op', hname, hallowed, hcase⟩
  · simp at hnone
  obtain rfl := text_injective hname
  have hv : op'.Valued D.values v := ⟨hallowed, hdrawn⟩
  refine ⟨hallowed, ?_⟩
  rcases hcase with ⟨rfl, rfl⟩ | ⟨m, m', rfl, rfl, hmerge⟩
  · obtain rfl : vs = [] := h
    refine ⟨by simp, by simp, ⟨v, hv⟩, rfl, ?_⟩
    rw [values_cons hv]
    simp
  · have hm : Loosest D op' vs m := h
    obtain ⟨M, rfl, hglb⟩ := hm.isGLB
    obtain ⟨M', rfl, hpair⟩ := mergeValues_isGLB M ⟨v, hv⟩ hmerge
    refine ⟨by simp, fun _ => proper_mergeValues hmerge, M', rfl, ?_⟩
    rw [values_cons hv]
    exact isGLB_insert_of_pair hglb hpair

/-- One more value can be merged if some value is as strict as all of them. -/
theorem MergedValue.isOk {v : Json} {cur : Option Json} (h : MergedValue D op vs cur)
    (hv : op.Valued D.values v) {c : OperatorValue D op}
    (hc : ∀ w ∈ v :: vs, op.Stricter c.json w)
    (hproper : 1 < (v :: vs).length → op.Proper c.json) (path : String) :
    ∃ after, mergeOperator operators path op.text v cur = .ok after := by
  cases cur with
  | none => exact ⟨_, mergeOperator_first hv.allowed path⟩
  | some m =>
    have hm : Loosest D op vs m := h
    obtain ⟨M, rfl, hcM⟩ := hm.le fun w hw => hc w (List.mem_cons_of_mem _ hw)
    have hcv : c ≤ ⟨v, hv⟩ := hc v List.mem_cons_self
    have hlength : 1 < (v :: vs).length := by
      have := List.length_pos_iff.mpr hm.stated
      simp only [List.length_cons]
      omega
    obtain ⟨m', hm'⟩ := mergeValues_isOk (hproper hlength) hcM hcv
    exact ⟨_, mergeOperator_next M.valued.allowed hv.allowed hm' path⟩

end Operator

/-! ## One parameter -/

/-- What the merge of the statements `done` leaves at a parameter. -/
structure MergedParameter (D : ValueDomain) (entityType paramName : String)
    (done : List PolicyStatement) (merged : Option ParameterPolicy) : Prop where
  present : merged.isSome ↔ ∃ stmt ∈ done, (stmt.parameterPolicy entityType paramName).isSome
  values : ∀ op : PolicyOperator, MergedValue D op (statedValues entityType paramName op done)
    (merged.bind (·.get? op.text))
  known : ∀ k, ofText? k = none → merged.bind (·.get? k) = none

/-- The operators that the statements state on a parameter can be read: the values are of the
operators' types, and no name is one of `Object.prototype`. -/
structure Readable (entityType paramName : String) (stmts : List PolicyStatement) : Prop where
  allowed : ∀ op : PolicyOperator, ∀ v ∈ statedValues entityType paramName op stmts,
    op.allowsValue v = true
  names : ∀ stmt ∈ stmts, ∀ ops, stmt.parameterPolicy entityType paramName = some ops → ∀ k v,
    ops.get? k = some v → ofText? k = none → inherited k = false

section Parameter

variable {stmt : PolicyStatement} {done : List PolicyStatement}

theorem statedValues_none {op : PolicyOperator}
    (h : (stmt.parameterPolicy entityType paramName).bind (·.get? op.text) = none) :
    statedValues entityType paramName op (stmt :: done) =
      statedValues entityType paramName op done := by
  simp only [statedValues, List.filterMap_cons, h]

theorem statedValues_some {op : PolicyOperator} {v : Json}
    (h : (stmt.parameterPolicy entityType paramName).bind (·.get? op.text) = some v) :
    statedValues entityType paramName op (stmt :: done) =
      v :: statedValues entityType paramName op done := by
  simp only [statedValues, List.filterMap_cons, h]

theorem mem_statedValues {op : PolicyOperator} {v : Json} {stmts : List PolicyStatement} :
    v ∈ statedValues entityType paramName op stmts ↔
      ∃ stmt ∈ stmts, ∃ ops, stmt.parameterPolicy entityType paramName = some ops ∧
        ops.get? op.text = some v := by
  simp [statedValues, List.mem_filterMap, Option.bind_eq_some_iff]

theorem statedValues_drawn {U : Set Json} {stmts : List PolicyStatement}
    (hdrawn : ∀ stmt ∈ stmts, stmt.DrawnAt U entityType paramName) {op : PolicyOperator} {v : Json}
    (hv : v ∈ statedValues entityType paramName op stmts) : DrawnFrom U v := by
  obtain ⟨stmt, hmem, ops, hops, hget⟩ := mem_statedValues.mp hv
  exact hdrawn stmt hmem ops hops op v hget

theorem mergedParameter_nil : MergedParameter D entityType paramName [] none :=
  ⟨by simp, fun _ => rfl, fun _ _ => rfl⟩

theorem readable_nil : Readable entityType paramName [] := ⟨by simp [statedValues], by simp⟩

/-- A name that is not a known operator's is left out. -/
theorem mergeOperator_unknown {k : String} (hk : ofText? k = none) {path : String} {v : Json}
    {cur after : Option Json} :
    mergeOperator operators path k v cur = .ok after ↔ inherited k = false ∧ after = cur := by
  have hget : operators.get? k = none := by simp [operators_get?, hk]
  cases hi : inherited k with
  | false =>
    have hread : operators.read k = .undefined := by
      simp only [Dict.read, hget, readOr_of_not_inherited _ hi]
    simp [mergeOperator, hread, eq_comm]
  | true =>
    obtain ⟨b, hb⟩ := Option.isSome_iff_exists.mp hi
    have hread : operators.read k = .builtin b := by
      simp only [Dict.read, hget, readOr, hb]
    simp [mergeOperator, hread]

/-- A statement's operators merged into those of a parameter, one by one. -/
theorem MergedParameter.merge {before : Option ParameterPolicy} {opEntries ops : ParameterPolicy}
    {path : String} (h : MergedParameter D entityType paramName done before)
    (hread : Readable entityType paramName done)
    (hdrawn : stmt.DrawnAt D.values entityType paramName)
    (hstated : stmt.parameterPolicy entityType paramName = some opEntries)
    (hstep : ∀ k v, opEntries.get? k = some v →
      mergeOperator operators path k v (before.bind (·.get? k)) = .ok (ops.get? k))
    (hother : ∀ k, opEntries.get? k = none → ops.get? k = before.bind (·.get? k)) :
    MergedParameter D entityType paramName (stmt :: done) (some ops) ∧
      Readable entityType paramName (stmt :: done) := by
  have hstatedOp : ∀ op : PolicyOperator,
      (stmt.parameterPolicy entityType paramName).bind (·.get? op.text) =
        opEntries.get? op.text := by
    intro op
    rw [hstated]
    rfl
  -- each operator on its own, whether the statement states it or not
  have hvalue : ∀ op : PolicyOperator,
      (∀ v, opEntries.get? op.text = some v → op.allowsValue v = true) ∧
        MergedValue D op (statedValues entityType paramName op (stmt :: done))
          (ops.get? op.text) := by
    intro op
    cases hv : opEntries.get? op.text with
    | none =>
      rw [statedValues_none ((hstatedOp op).trans hv), hother _ hv]
      exact ⟨by simp, h.values op⟩
    | some v =>
      rw [statedValues_some ((hstatedOp op).trans hv)]
      obtain ⟨hallowed, hmerged⟩ :=
        (h.values op).step (hdrawn _ hstated op v hv) (hstep _ v hv)
      exact ⟨fun w hw => Option.some.inj hw ▸ hallowed, hmerged⟩
  refine ⟨⟨?_, fun op => (hvalue op).2, fun k hk => ?_⟩, fun op v hv => ?_, ?_⟩
  · simp [hstated]
  · cases hv : opEntries.get? k with
    | none => exact (hother k hv).trans (h.known k hk)
    | some v =>
      obtain ⟨-, hsame⟩ := (mergeOperator_unknown hk).mp (hstep k v hv)
      exact hsame.trans (h.known k hk)
  · cases hv' : opEntries.get? op.text with
    | none =>
      rw [statedValues_none ((hstatedOp op).trans hv')] at hv
      exact hread.allowed op v hv
    | some w =>
      rw [statedValues_some ((hstatedOp op).trans hv')] at hv
      rcases List.mem_cons.mp hv with rfl | hv
      · exact (hvalue op).1 v hv'
      · exact hread.allowed op v hv
  · intro s hs ops' hops' k v hv hk
    rcases List.mem_cons.mp hs with rfl | hs
    · obtain rfl : opEntries = ops' := Option.some.inj (hstated.symm.trans hops')
      exact ((mergeOperator_unknown hk).mp (hstep k v hv)).1
    · exact hread.names s hs ops' hops' k v hv hk

theorem getD_empty_get? (before : Option ParameterPolicy) (k : String) :
    (before.getD .empty).get? k = before.bind (·.get? k) := by
  cases before <;> rfl

/-- A statement that says nothing on the parameter. -/
theorem MergedParameter.unstated {merged : Option ParameterPolicy}
    (h : MergedParameter D entityType paramName done merged)
    (hread : Readable entityType paramName done)
    (hs : stmt.parameterPolicy entityType paramName = none) :
    MergedParameter D entityType paramName (stmt :: done) merged ∧
      Readable entityType paramName (stmt :: done) := by
  have hnone : ∀ op : PolicyOperator,
      (stmt.parameterPolicy entityType paramName).bind (·.get? op.text) = none := by
    simp [hs]
  refine ⟨⟨?_, fun op => ?_, h.known⟩, fun op v hv => ?_, fun s hmem ops hops => ?_⟩
  · rw [h.present]
    simp [hs]
  · rw [statedValues_none (hnone op)]
    exact h.values op
  · rw [statedValues_none (hnone op)] at hv
    exact hread.allowed op v hv
  · rcases List.mem_cons.mp hmem with rfl | hmem
    · simp [hs] at hops
    · exact hread.names s hmem ops hops

/-- One more statement merged. -/
theorem MergedParameter.step {before after : Option ParameterPolicy}
    (h : MergedParameter D entityType paramName done before)
    (hread : Readable entityType paramName done)
    (hdrawn : stmt.DrawnAt D.values entityType paramName)
    (hname : (stmt.parameterPolicy entityType paramName).isSome → inherited paramName = false)
    (hstep : ParameterStep operators entityType paramName
      (stmt.parameterPolicy entityType paramName) before after) :
    MergedParameter D entityType paramName (stmt :: done) after ∧
      Readable entityType paramName (stmt :: done) := by
  cases hs : stmt.parameterPolicy entityType paramName with
  | none =>
    rw [hs] at hstep
    obtain rfl : after = before := hstep
    exact h.unstated hread hs
  | some opEntries =>
    rw [hs] at hstep
    simp only [ParameterStep, mergeParameter_of_not_inherited (hname (by simp [hs]))] at hstep
    obtain ⟨ops, rfl, -, hmerge, hother⟩ := mergeOperators_eq_ok hstep
    simp only [getD_empty_get?] at hmerge hother
    exact h.merge hread hdrawn hs hmerge hother

end Parameter

/-! ## When the statements merge -/

/-- The operators `strict` go together, and are as strict as all that the statements say on a
parameter. -/
structure CommonRefinement (U : Set Json) (entityType paramName : String)
    (stmts : List PolicyStatement) (strict : ParameterPolicy) : Prop where
  combined : Combined U strict
  stricter : ∀ op : PolicyOperator, ∀ v ∈ statedValues entityType paramName op stmts,
    ∃ m, strict.get? op.text = some m ∧ op.Stricter m v
  proper : ∀ (op : PolicyOperator) m, strict.get? op.text = some m →
    1 < (statedValues entityType paramName op stmts).length → op.Proper m

/-- What the statements say on a parameter can be read, and refined in common. -/
structure Mergeable (U : Set Json) (entityType paramName : String)
    (stmts : List PolicyStatement) : Prop where
  readable : Readable entityType paramName stmts
  refined : ∃ strict, CommonRefinement U entityType paramName stmts strict

section Refinement

variable {stmt : PolicyStatement} {done : List PolicyStatement} {strict : ParameterPolicy}

/-- The value that a common refinement has for an operator that is stated. -/
theorem CommonRefinement.value {stmts : List PolicyStatement}
    (h : CommonRefinement D.values entityType paramName stmts strict) {op : PolicyOperator}
    (hne : statedValues entityType paramName op stmts ≠ []) :
    ∃ c : OperatorValue D op, strict.get? op.text = some c.json ∧
      (∀ v ∈ statedValues entityType paramName op stmts, op.Stricter c.json v) ∧
      (1 < (statedValues entityType paramName op stmts).length → op.Proper c.json) := by
  obtain ⟨v, hv⟩ := List.exists_mem_of_ne_nil _ hne
  obtain ⟨m, hm, -⟩ := h.stricter op v hv
  obtain ⟨op', hname, hvalued⟩ := h.combined.known _ m hm
  obtain rfl := text_injective hname
  refine ⟨⟨m, hvalued⟩, hm, fun w hw => ?_, h.proper op' m hm⟩
  obtain ⟨m', hm', hstricter⟩ := h.stricter op' w hw
  obtain rfl : m = m' := Option.some.inj (hm.symm.trans hm')
  exact hstricter

/-- It also refines fewer statements. -/
theorem CommonRefinement.tail {U : Set Json}
    (h : CommonRefinement U entityType paramName (stmt :: done) strict) :
    CommonRefinement U entityType paramName done strict := by
  have hsub : ∀ op : PolicyOperator, (statedValues entityType paramName op done).Sublist
      (statedValues entityType paramName op (stmt :: done)) :=
    fun op => (List.sublist_cons_self stmt done).filterMap _
  refine ⟨h.combined, fun op v hv => h.stricter op v ((hsub op).subset hv), fun op m hm hlen => ?_⟩
  exact h.proper op m hm (hlen.trans_le (hsub op).length_le)

theorem Mergeable.tail {U : Set Json} (h : Mergeable U entityType paramName (stmt :: done)) :
    Mergeable U entityType paramName done := by
  obtain ⟨strict, hstrict⟩ := h.refined
  have hsub : ∀ op : PolicyOperator, (statedValues entityType paramName op done).Sublist
      (statedValues entityType paramName op (stmt :: done)) :=
    fun op => (List.sublist_cons_self stmt done).filterMap _
  exact ⟨⟨fun op v hv => h.readable.allowed op v ((hsub op).subset hv),
    fun s hs => h.readable.names s (List.mem_cons_of_mem _ hs)⟩, strict, hstrict.tail⟩

/-- Merged operators go together when something stricter does. -/
theorem MergedParameter.combine {ops : ParameterPolicy}
    (h : MergedParameter D entityType paramName done (some ops))
    (hstrict : CommonRefinement D.values entityType paramName done strict) (path : String) :
    checkCombinations operators path ops.members = .ok () := by
  -- each merged value is one that the common refinement is as strict as
  have hvalue : ∀ k m, (k, m) ∈ ops.members → ∃ (op : PolicyOperator) (c M : OperatorValue D op),
      op.text = k ∧ M.json = m ∧ strict.get? op.text = some c.json ∧ c ≤ M := by
    intro k m hmem
    have hget : ops.get? k = some m := (ops.get?_eq_some_iff k m).mpr hmem
    cases hk : ofText? k with
    | none =>
      have hnone : ops.get? k = none := h.known k hk
      simp [hget] at hnone
    | some op =>
      obtain rfl := text_of_ofText? hk
      have hmerged : MergedValue D op (statedValues entityType paramName op done)
          (ops.get? op.text) := h.values op
      rw [hget] at hmerged
      have hloosest : Loosest D op (statedValues entityType paramName op done) m := hmerged
      obtain ⟨c, hc, hall, -⟩ := hstrict.value hloosest.stated
      obtain ⟨M, hM, hle⟩ := hloosest.le hall
      exact ⟨op, c, M, rfl, hM, hc, hle⟩
  refine checkCombinations_eq_ok.mpr ?_
  refine (List.pairwise_map.mp ops.nodup).imp_of_mem fun {x y} hx hy hne => ?_
  obtain ⟨a, ca, Ma, hka, hma, hca, hlea⟩ := hvalue x.1 x.2 hx
  obtain ⟨b, cb, Mb, hkb, hmb, hcb, hleb⟩ := hvalue y.1 y.2 hy
  have hab : a ≠ b := by
    rintro rfl
    exact hne (hka.symm.trans hkb)
  obtain ⟨x₁, x₂⟩ := x
  obtain ⟨y₁, y₂⟩ := y
  obtain rfl : a.text = x₁ := hka
  obtain rfl : b.text = y₁ := hkb
  obtain rfl : Ma.json = x₂ := hma
  obtain rfl : Mb.json = y₂ := hmb
  exact combine_standard.mpr
    ⟨combinesWith_mono hlea hleb (hstrict.combined.combines a b hab _ _ hca hcb),
      combinesWith_mono hleb hlea (hstrict.combined.combines b a hab.symm _ _ hcb hca)⟩

/-- One more statement can be merged into a parameter. -/
theorem MergedParameter.isOk {before : Option ParameterPolicy} {opEntries : ParameterPolicy}
    (h : MergedParameter D entityType paramName done before)
    (hmergeable : Mergeable D.values entityType paramName (stmt :: done))
    (hdrawn : stmt.DrawnAt D.values entityType paramName)
    (hstated : stmt.parameterPolicy entityType paramName = some opEntries) (path : String) :
    ∃ after, mergeOperators operators path opEntries (before.getD .empty) = .ok after := by
  obtain ⟨strict, hstrict⟩ := hmergeable.refined
  have hstep : ∀ e ∈ opEntries.members, ∃ after,
      mergeOperator operators path e.1 e.2 ((before.getD .empty).get? e.1) = .ok after := by
    rintro ⟨k, v⟩ hmem
    have hget : opEntries.get? k = some v := (opEntries.get?_eq_some_iff k v).mpr hmem
    rw [getD_empty_get?]
    cases hk : ofText? k with
    | none =>
      have hname := hmergeable.readable.names stmt List.mem_cons_self _ hstated k v hget hk
      exact ⟨_, (mergeOperator_unknown hk).mpr ⟨hname, rfl⟩⟩
    | some op =>
      obtain rfl := text_of_ofText? hk
      have hcons : statedValues entityType paramName op (stmt :: done) =
          v :: statedValues entityType paramName op done :=
        statedValues_some (by simp [hstated, hget])
      have hallowed : op.allowsValue v = true :=
        hmergeable.readable.allowed op v (by rw [hcons]; exact List.mem_cons_self)
      have hne : statedValues entityType paramName op (stmt :: done) ≠ [] := by simp [hcons]
      obtain ⟨c, -, hall, hproper⟩ := hstrict.value hne
      rw [hcons] at hall hproper
      exact (h.values op).isOk ⟨hallowed, hdrawn _ hstated op v hget⟩ hall hproper path
  obtain ⟨ops, hops⟩ := Dict.updateM_isOk opEntries.nodup hstep
  obtain ⟨hmerge, hother⟩ := Dict.updateM_get? opEntries.nodup hops
  simp only [getD_empty_get?] at hmerge hother
  obtain ⟨hafter, -⟩ := h.merge hmergeable.tail.readable hdrawn hstated
    (fun k v hk => hmerge (k, v) ((opEntries.get?_eq_some_iff k v).mp hk))
    (fun k hk => hother k ((opEntries.get?_eq_none_iff k).mp hk))
  have hcheck := hafter.combine hstrict path
  exact ⟨some ops, by simp only [mergeOperators, hops, bind, Except.bind, hcheck, pure, Except.pure]⟩

end Refinement

/-! ## The whole chain -/

/-- No entity type or parameter of the statement is named like a member of `Object.prototype`. -/
structure PolicyStatement.PlainNames (stmt : PolicyStatement) : Prop where
  entityType : ∀ entityType, (stmt.entityTypePolicy entityType).isSome →
    inherited entityType = false
  parameter : ∀ entityType paramName, (stmt.parameterPolicy entityType paramName).isSome →
    inherited paramName = false

/-- A statement can be merged if its operators can, parameter by parameter. -/
theorem mergeStatement_isOk {lookup : OperatorLookup} {stmt : PolicyStatement}
    {merged : ResolvedMetadataPolicy} (hnames : stmt.PlainNames)
    (h : ∀ entityType paramName opEntries,
      stmt.parameterPolicy entityType paramName = some opEntries →
      ∃ after, mergeOperators lookup s!"{entityType}.{paramName}" opEntries
        ((parameterPolicy merged entityType paramName).getD .empty) = .ok after) :
    ∃ merged', mergeStatement lookup merged stmt = .ok merged' := by
  cases hpolicy : stmt.metadataPolicy with
  | none => exact ⟨merged, by simp only [mergeStatement, hpolicy]⟩
  | some policy =>
    simp only [mergeStatement, hpolicy]
    refine Dict.updateM_isOk policy.nodup ?_
    rintro ⟨entityType, params⟩ hmem
    have hparams : stmt.entityTypePolicy entityType = some params := by
      simp only [PolicyStatement.entityTypePolicy, hpolicy, Option.bind_some]
      exact (policy.get?_eq_some_iff _ _).mpr hmem
    have hentity : inherited entityType = false := hnames.entityType _ (by simp [hparams])
    have hloop : ∃ d, Dict.updateM (mergeParameter lookup entityType) params.members
        ((merged.get? entityType).getD .empty) = .ok d := by
      refine Dict.updateM_isOk params.nodup ?_
      rintro ⟨paramName, opEntries⟩ hmem'
      have hstated : stmt.parameterPolicy entityType paramName = some opEntries := by
        simp only [PolicyStatement.parameterPolicy, hparams, Option.bind_some]
        exact (params.get?_eq_some_iff _ _).mpr hmem'
      have hcur : ((merged.get? entityType).getD .empty).get? paramName =
          parameterPolicy merged entityType paramName := by
        unfold parameterPolicy
        cases merged.get? entityType <;> rfl
      have hname := hnames.parameter entityType paramName (by simp [hstated])
      simp only [mergeParameter_of_not_inherited hname, hcur]
      exact h entityType paramName opEntries hstated
    obtain ⟨d, hd⟩ := hloop
    exact ⟨some d, by
      simp only [mergeEntityType_of_not_inherited hentity, hd, bind, Except.bind, pure,
        Except.pure]⟩

section Chain

variable {stmts : List PolicyStatement} {merged : ResolvedMetadataPolicy}

/-- What the statements merge into, and that they could be read. -/
theorem mergedParameter_of_fold
    (hdrawn : ∀ stmt ∈ stmts, stmt.DrawnAt D.values entityType paramName)
    (hnames : ∀ stmt ∈ stmts, stmt.PlainNames)
    (h : stmts.foldrM (fun stmt merged => mergeStatement operators merged stmt) .empty =
      .ok merged) :
    MergedParameter D entityType paramName stmts (parameterPolicy merged entityType paramName) ∧
      Readable entityType paramName stmts := by
  have hinv := resolveMetadataPolicy_induct
    (fun done merged => (∀ stmt ∈ done, stmt.DrawnAt D.values entityType paramName ∧
        stmt.PlainNames) →
      MergedParameter D entityType paramName done merged ∧ Readable entityType paramName done)
    (fun _ => ⟨mergedParameter_nil, readable_nil⟩)
    (fun stmt done before after hbefore hstep hall => by
      obtain ⟨hmerged, hread⟩ := hbefore fun s hs => hall s (List.mem_cons_of_mem _ hs)
      obtain ⟨hdrawn, hnames⟩ := hall stmt List.mem_cons_self
      exact hmerged.step hread hdrawn (hnames.parameter entityType paramName) hstep) h
  exact hinv fun stmt hs => ⟨hdrawn stmt hs, hnames stmt hs⟩

/-- The merged operators are a common refinement of the statements. -/
theorem commonRefinement_of_resolve
    (hdrawn : ∀ stmt ∈ stmts, stmt.DrawnAt D.values entityType paramName)
    (hnames : ∀ stmt ∈ stmts, stmt.PlainNames) (h : resolveMetadataPolicy stmts = .ok merged) :
    CommonRefinement D.values entityType paramName stmts
      ((parameterPolicy merged entityType paramName).getD .empty) := by
  obtain ⟨lookup, hl, -, hfold⟩ := resolveMetadataPolicy_eq_ok.mp h
  obtain rfl : operators = lookup := Except.ok.inj (buildOperatorLookup_standard.symm.trans hl)
  obtain ⟨hmerged, hread⟩ := mergedParameter_of_fold hdrawn hnames hfold
  have hchain := resolveMetadataPolicy_chainInv D.equiv.refl hdrawn h
  have hloosest : ∀ (op : PolicyOperator) m,
      ((parameterPolicy merged entityType paramName).getD .empty).get? op.text = some m →
      Loosest D op (statedValues entityType paramName op stmts) m := by
    intro op m hm
    have hvalue := hmerged.values op
    rw [← getD_empty_get?, hm] at hvalue
    exact hvalue
  refine ⟨?_, fun op v hv => ?_, fun op m hm => (hloosest op m hm).proper⟩
  · cases hp : parameterPolicy merged entityType paramName with
    | none => exact combined_empty
    | some ops => exact hchain.combined ops hp
  · cases hm : ((parameterPolicy merged entityType paramName).getD .empty).get? op.text with
    | none =>
      have hvalue := hmerged.values op
      rw [← getD_empty_get?, hm] at hvalue
      have hnil : statedValues entityType paramName op stmts = [] := hvalue
      simp [hnil] at hv
    | some m =>
      exact ⟨m, rfl, (hloosest op m hm).stricter hv
        ⟨hread.allowed op v hv, statedValues_drawn hdrawn hv⟩⟩

section Whole

-- the values of each parameter have a domain of their own
variable {E : String → String → ValueDomain}

theorem fold_isOk
    (hdrawn : ∀ entityType paramName, ∀ stmt ∈ stmts,
      stmt.DrawnAt (E entityType paramName).values entityType paramName)
    (hnames : ∀ stmt ∈ stmts, stmt.PlainNames)
    (h : ∀ entityType paramName, Mergeable (E entityType paramName).values entityType paramName
      stmts) :
    ∃ merged,
      stmts.foldrM (fun stmt merged => mergeStatement operators merged stmt) .empty = .ok merged := by
  induction stmts with
  | nil => exact ⟨.empty, rfl⟩
  | cons stmt rest ih =>
    have hdrawn' : ∀ entityType paramName, ∀ s ∈ rest,
        s.DrawnAt (E entityType paramName).values entityType paramName :=
      fun e p s hs => hdrawn e p s (List.mem_cons_of_mem _ hs)
    have hnames' : ∀ s ∈ rest, s.PlainNames := fun s hs => hnames s (List.mem_cons_of_mem _ hs)
    obtain ⟨merged, hmerged⟩ := ih hdrawn' hnames' fun e p => (h e p).tail
    have hstep : ∃ merged', mergeStatement operators merged stmt = .ok merged' := by
      refine mergeStatement_isOk (hnames stmt List.mem_cons_self)
        fun entityType paramName opEntries hstated => ?_
      obtain ⟨hinv, -⟩ :=
        mergedParameter_of_fold (hdrawn' entityType paramName) hnames' hmerged
      exact hinv.isOk (h entityType paramName)
        (hdrawn entityType paramName stmt List.mem_cons_self) hstated _
    obtain ⟨merged', hok⟩ := hstep
    refine ⟨merged', ?_⟩
    rw [List.foldrM_cons]
    exact bind_eq_ok.mpr ⟨merged, hmerged, hok⟩

/-- Statements merge exactly when no critical operator stops them and some policy refines them in
common. -/
theorem resolveMetadataPolicy_isOk_iff
    (hdrawn : ∀ entityType paramName, ∀ stmt ∈ stmts,
      stmt.DrawnAt (E entityType paramName).values entityType paramName)
    (hnames : ∀ stmt ∈ stmts, stmt.PlainNames) :
    (∃ merged, resolveMetadataPolicy stmts = .ok merged) ↔
      (∀ critOp ∈ stmts.flatMap PolicyStatement.metadataPolicyCrit,
        checkCritical operators critOp = .ok ()) ∧
      ∀ entityType paramName, Mergeable (E entityType paramName).values entityType paramName
        stmts := by
  constructor
  · rintro ⟨merged, h⟩
    obtain ⟨lookup, hl, hcrit, hfold⟩ := resolveMetadataPolicy_eq_ok.mp h
    obtain rfl : operators = lookup := Except.ok.inj (buildOperatorLookup_standard.symm.trans hl)
    exact ⟨Pipeline.forM_eq_ok hcrit, fun entityType paramName =>
      ⟨(mergedParameter_of_fold (hdrawn entityType paramName) hnames hfold).2, _,
        commonRefinement_of_resolve (hdrawn entityType paramName) hnames h⟩⟩
  · rintro ⟨hcrit, hmergeable⟩
    obtain ⟨merged, hfold⟩ := fold_isOk hdrawn hnames hmergeable
    exact ⟨merged, resolveMetadataPolicy_eq_ok.mpr
      ⟨operators, rfl, Pipeline.forM_eq_ok_iff.mpr hcrit, hfold⟩⟩

end Whole

end Chain

end OidFed
