import OidFed.Policy.Satisfies

/-!
# No subordinate loosens a superior's policy

`NoLoosening U`: metadata that the merged policy of a chain accepts and completes meet every operator
of every statement of the chain on each parameter whose values are drawn from `U`.

* `Combined`: what a successful merge leaves at a parameter, values of their operators' types that
  combine pairwise. `ChainInv`: it refines everything the statements said.
* `applyParameter_holds`: application in the operators' order establishes all of them.
* `noLoosening_iff`: the law holds over `U` exactly when `deepEqual` is an equivalence there.
  `noLoosening_perParameter` says so of each call, parameter by parameter.
-/

namespace OidFed

open Js UpTo PolicyOperator

variable {U : Set Json}

/-! ## Merged parameters -/

/-- The operators of a merged parameter: of their types, and combining pairwise. -/
structure Combined (U : Set Json) (ops : ParameterPolicy) : Prop where
  known : ∀ k m, ops.get? k = some m → ∃ op : PolicyOperator, op.text = k ∧ op.Valued U m
  combines : ∀ a b : PolicyOperator, a ≠ b → ∀ ma mb, ops.get? a.text = some ma →
    ops.get? b.text = some mb → a.combinesWith b ma mb = true

theorem checkCombinations_eq_ok {lookup : OperatorLookup} {path : String}
    {l : List (String × Json)} :
    checkCombinations lookup path l = .ok () ↔ l.Pairwise fun a b => combine lookup a b = true := by
  induction l with
  | nil => simp [checkCombinations]
  | cons a rest ih =>
    rw [checkCombinations, List.pairwise_cons]
    cases hf : rest.find? fun b => !combine lookup a b with
    | some b =>
      have hb : combine lookup a b = false := by simpa using List.find?_some hf
      have : ¬ ∀ c ∈ rest, combine lookup a c = true := fun h => by
        simp [h b (List.mem_of_find?_eq_some hf)] at hb
      exact ⟨fun h => by simp [policyError] at h, fun h => absurd h.1 this⟩
    | none =>
      have hall : ∀ c ∈ rest, combine lookup a c = true := by simpa using hf
      simp only [ih]
      exact ⟨fun h => ⟨hall, h⟩, fun h => h.2⟩

theorem combine_standard {a b : PolicyOperator} {ma mb : Json} :
    combine operators (a.text, ma) (b.text, mb) = true ↔
      a.combinesWith b ma mb = true ∧ b.combinesWith a mb ma = true := by
  simp [combine, operators_get?, definition, canCombineWith]

/-- What merging one operator of a statement into the registry's gives. -/
theorem mergeOperator_standard {path opName : String} {v : Json} {cur after : Option Json}
    (h : mergeOperator operators path opName v cur = .ok after) :
    (ofText? opName = none ∧ after = cur) ∨ ∃ op : PolicyOperator, op.text = opName ∧
      op.allowsValue v = true ∧ ((cur = none ∧ after = some v) ∨
        ∃ m m', cur = some m ∧ after = some m' ∧ op.mergeValues m v = .ok m') := by
  unfold mergeOperator Dict.read at h
  rw [operators_get?] at h
  cases hop : ofText? opName with
  | none =>
    left
    simp only [hop, Option.map_none, readOr] at h
    cases hb : objectPrototype.lookup opName with
    | none => rw [hb] at h; exact ⟨rfl, (Except.ok.inj h).symm⟩
    | some b => rw [hb] at h; simp at h
  | some op =>
    right
    obtain rfl := text_of_ofText? hop
    simp only [hop, Option.map_some, readOr] at h
    cases hc : validateStandardPolicyOperatorConfiguration op.text v with
    | some e => rw [hc] at h; simp [policyError] at h
    | none =>
      simp only [hc] at h
      refine ⟨op, rfl, (validateStandard_eq_none op v).mp hc, ?_⟩
      cases cur with
      | none =>
        have hb : objectPrototype.lookup op.text = none := by
          simpa [inherited] using op.not_inherited
        simp only [hb] at h
        exact .inl ⟨rfl, (Except.ok.inj h).symm⟩
      | some m =>
        simp only [definition, PolicyOperator.merge] at h
        cases hm : op.configured m (op.configured v (op.mergeValues m v)) with
        | error e => rw [hm] at h; simp [policyError] at h
        | ok m' =>
          rw [hm] at h
          exact .inr ⟨m, m', rfl, (Except.ok.inj h).symm,
            (configured_eq_ok.mp (configured_eq_ok.mp hm).2).2⟩

/-- A statement's values for one parameter are drawn from `U`. -/
def OperatorsDrawn (U : Set Json) (ops : ParameterPolicy) : Prop :=
  ∀ (op : PolicyOperator) (v : Json), ops.get? op.text = some v → DrawnFrom U v

/-- The merged operators combine, and refine the statement's and whatever the former ones
refined. -/
theorem mergeOperators_refines (hrefl : ∀ x ∈ U, deepEqual x x = true) {path : String}
    {opEntries cur ops : ParameterPolicy} (hcur : Combined U cur)
    (hdrawn : OperatorsDrawn U opEntries)
    (h : mergeOperators operators path opEntries cur = .ok (some ops)) :
    Combined U ops ∧
      (∀ (op : PolicyOperator) v, opEntries.get? op.text = some v →
        op.Valued U v ∧ ∃ m, ops.get? op.text = some m ∧ op.Refines m v) ∧
      ∀ (op : PolicyOperator) m v, cur.get? op.text = some m → op.Refines m v →
        ∃ m', ops.get? op.text = some m' ∧ op.Refines m' v := by
  obtain ⟨ops', hops', hcheck, hstep, hother⟩ := mergeOperators_eq_ok h
  obtain rfl := Option.some.inj hops'
  -- what the merge did at one standard operator
  have hop : ∀ (op : PolicyOperator) v, opEntries.get? op.text = some v →
      op.Valued U v ∧ ∃ m, ops.get? op.text = some m ∧ op.Valued U m ∧ op.Refines m v ∧
        ∀ m₀ w, cur.get? op.text = some m₀ → op.Refines m₀ w → op.Refines m w := by
    intro op v hv
    rcases mergeOperator_standard (hstep _ v hv) with ⟨hnone, -⟩ | ⟨op', hname, hallowed, hcase⟩
    · simp at hnone
    obtain rfl := text_injective hname
    have hvalued : op'.Valued U v := ⟨hallowed, hdrawn op' v hv⟩
    refine ⟨hvalued, ?_⟩
    rcases hcase with ⟨hnone, hafter⟩ | ⟨m, m', hsome, hafter, hmerge⟩
    · refine ⟨v, hafter, hvalued, refines_refl hrefl hvalued, fun m₀ w hm₀ _ => ?_⟩
      rw [hnone] at hm₀
      simp at hm₀
    · obtain ⟨op'', hname', hm⟩ := hcur.known _ m hsome
      obtain rfl := text_injective hname'
      obtain ⟨hm', hnew, hold⟩ := mergeValues_refines hrefl hm hvalued hmerge
      refine ⟨m', hafter, hm', hnew, fun m₀ w hm₀ hw => ?_⟩
      rw [hsome, Option.some.injEq] at hm₀
      exact hold w (hm₀ ▸ hw)
  refine ⟨⟨fun k m hk => ?_, fun a b hab ma mb ha hb => ?_⟩, fun op v hv => ?_,
    fun op m v hm hmv => ?_⟩
  · cases hv : opEntries.get? k with
    | none => exact hcur.known k m (hother k hv ▸ hk)
    | some v =>
      rcases mergeOperator_standard (hstep k v hv) with ⟨-, hsame⟩ | ⟨op, rfl, -⟩
      · exact hcur.known k m (hsame ▸ hk)
      · obtain ⟨-, m', hm', hvalued, -⟩ := hop op v hv
        rw [hm', Option.some.injEq] at hk
        exact ⟨op, rfl, hk ▸ hvalued⟩
  · have hpair := checkCombinations_eq_ok.mp hcheck
    have hne : (a.text, ma) ≠ (b.text, mb) := fun h => hab (text_injective (congrArg Prod.fst h))
    have hsymm : Std.Symm fun x y : String × Json => combine operators x y = true :=
      ⟨fun x y hxy => by
        unfold combine at hxy ⊢
        cases hx : operators.get? x.1 <;> cases hy : operators.get? y.1 <;> simp_all⟩
    have hmem := hpair.forall ((ops.get?_eq_some_iff _ _).mp ha) ((ops.get?_eq_some_iff _ _).mp hb) hne
    exact (combine_standard.mp hmem).1
  · obtain ⟨hvalued, m, hm, -, href, -⟩ := hop op v hv
    exact ⟨hvalued, m, hm, href⟩
  · cases hv : opEntries.get? op.text with
    | none => exact ⟨m, (hother _ hv).trans hm, hmv⟩
    | some v' =>
      obtain ⟨-, m', hm', -, -, hold⟩ := hop op v' hv
      exact ⟨m', hm', hold m v hm hmv⟩

theorem combined_empty : Combined U .empty :=
  ⟨fun k m h => by simp at h, fun a b _ ma mb h => by simp at h⟩

/-! ## The chain -/

/-- After the statements `done`, the merged parameter combines and refines all they said. -/
structure ChainInv (U : Set Json) (entityType paramName : String) (done : List PolicyStatement)
    (merged : Option ParameterPolicy) : Prop where
  combined : ∀ ops, merged = some ops → Combined U ops
  refines : ∀ stmt ∈ done, ∀ stated, stmt.parameterPolicy entityType paramName = some stated →
    ∀ (op : PolicyOperator) v, stated.get? op.text = some v →
      op.Valued U v ∧ ∃ ops m, merged = some ops ∧ ops.get? op.text = some m ∧ op.Refines m v

/-- What a statement says on a parameter is drawn from `U`. -/
def PolicyStatement.DrawnAt (U : Set Json) (entityType paramName : String)
    (stmt : PolicyStatement) : Prop :=
  ∀ ops, stmt.parameterPolicy entityType paramName = some ops → OperatorsDrawn U ops

/-- What a statement says is drawn from `U`. -/
def PolicyStatement.Drawn (U : Set Json) (stmt : PolicyStatement) : Prop :=
  ∀ entityType paramName ops, stmt.parameterPolicy entityType paramName = some ops →
    OperatorsDrawn U ops

theorem PolicyStatement.Drawn.at {stmt : PolicyStatement} (h : stmt.Drawn U)
    (entityType paramName : String) : stmt.DrawnAt U entityType paramName :=
  h entityType paramName

/-- A parameter that is inherited has no known operator in a merge that goes through. -/
theorem mergeOperatorOutside_eq_ok {path opName : String} {v : Json}
    (h : mergeOperatorOutside operators path opName v = .ok ()) : ofText? opName = none := by
  cases hop : ofText? opName with
  | none => rfl
  | some op =>
    unfold mergeOperatorOutside Dict.read at h
    rw [operators_get?, hop] at h
    simp only [Option.map_some, readOr] at h
    split at h <;> simp [policyError] at h

theorem chainInv_step (hrefl : ∀ x ∈ U, deepEqual x x = true) {entityType paramName : String}
    {stmt : PolicyStatement} {done : List PolicyStatement} {before after : Option ParameterPolicy}
    (hdrawn : stmt.DrawnAt U entityType paramName)
    (hinv : ChainInv U entityType paramName done before)
    (hstep : ParameterStep operators entityType paramName
      (stmt.parameterPolicy entityType paramName) before after) :
    ChainInv U entityType paramName (stmt :: done) after := by
  cases hs : stmt.parameterPolicy entityType paramName with
  | none =>
    rw [hs] at hstep
    obtain rfl : after = before := hstep
    refine ⟨hinv.combined, fun s hmem stated hstated => ?_⟩
    rcases List.mem_cons.mp hmem with rfl | hmem
    · simp [hs] at hstated
    · exact hinv.refines s hmem stated hstated
  | some opEntries =>
    rw [hs] at hstep
    -- the operators merged into those of `cur`
    have hmerge : ∀ cur : ParameterPolicy, Combined U cur →
        (∀ ops, before = some ops → ops = cur) →
        mergeOperators operators s!"{entityType}.{paramName}" opEntries cur = .ok after →
        ChainInv U entityType paramName (stmt :: done) after := by
      intro cur hcur hbefore h
      obtain ⟨ops, rfl, -⟩ := mergeOperators_eq_ok h
      obtain ⟨hcomb, hnew, hold⟩ := mergeOperators_refines hrefl hcur (hdrawn _ hs) h
      refine ⟨fun ops' hops' => Option.some.inj hops' ▸ hcomb, fun s hmem stated hstated op v hv => ?_⟩
      rcases List.mem_cons.mp hmem with rfl | hmem
      · obtain rfl : opEntries = stated := by simpa [hs] using hstated
        obtain ⟨hvalued, m, hm, href⟩ := hnew op v hv
        exact ⟨hvalued, ops, m, rfl, hm, href⟩
      · obtain ⟨hvalued, ops₀, m₀, hops₀, hm₀, href₀⟩ := hinv.refines s hmem stated hstated op v hv
        obtain ⟨m, hm, href⟩ := hold op m₀ v (hbefore ops₀ hops₀ ▸ hm₀) href₀
        exact ⟨hvalued, ops, m, rfl, hm, href⟩
    simp only [ParameterStep, mergeParameter] at hstep
    cases before with
    | some cur =>
      exact hmerge cur (hinv.combined cur rfl) (fun ops h => (Option.some.inj h).symm) hstep
    | none =>
      unfold readOr at hstep
      cases hb : objectPrototype.lookup paramName with
      | none => rw [hb] at hstep; exact hmerge .empty combined_empty (by simp) hstep
      | some b =>
        rw [hb] at hstep
        obtain ⟨⟨⟩, hall, hafter⟩ := bind_eq_ok.mp hstep
        obtain rfl : none = after := Except.ok.inj hafter
        refine ⟨by simp, fun s hmem stated hstated op v hv => ?_⟩
        rcases List.mem_cons.mp hmem with rfl | hmem
        · obtain rfl : opEntries = stated := by simpa [hs] using hstated
          have hmem' := Pipeline.forM_eq_ok hall _ ((opEntries.get?_eq_some_iff _ _).mp hv)
          simpa using mergeOperatorOutside_eq_ok hmem'
        · exact hinv.refines s hmem stated hstated op v hv

/-- A merged chain refines all that its statements said. -/
theorem resolveMetadataPolicy_chainInv (hrefl : ∀ x ∈ U, deepEqual x x = true)
    {stmts : List PolicyStatement} {entityType paramName : String}
    (hdrawn : ∀ stmt ∈ stmts, stmt.DrawnAt U entityType paramName)
    {merged : ResolvedMetadataPolicy} (h : resolveMetadataPolicy stmts = .ok merged) :
    ChainInv U entityType paramName stmts (parameterPolicy merged entityType paramName) := by
  obtain ⟨lookup, hl, -, hfold⟩ := resolveMetadataPolicy_eq_ok.mp h
  obtain rfl : operators = lookup := Except.ok.inj (buildOperatorLookup_standard.symm.trans hl)
  clear h hl
  have hinv := resolveMetadataPolicy_induct
    (fun done merged => (∀ stmt ∈ done, stmt.DrawnAt U entityType paramName) →
      ChainInv U entityType paramName done merged)
    (fun _ => ⟨by simp, by simp⟩)
    (fun stmt done before after hbefore hstep hall =>
      chainInv_step hrefl (hall stmt List.mem_cons_self)
        (hbefore fun s hs => hall s (List.mem_cons_of_mem _ hs)) hstep) hfold
  exact hinv hdrawn

/-! ## Application -/

theorem mem_sortedOps {lookup : OperatorLookup} {ops : ParameterPolicy} {e : OperatorEntry} :
    e ∈ sortedOps lookup ops ↔ ops.get? e.1 = some e.2.1 ∧ lookup.get? e.1 = some e.2.2 := by
  obtain ⟨k, m, d⟩ := e
  rw [sortedOps, (List.perm_insertionSort _ _).mem_iff, List.mem_filterMap]
  constructor
  · rintro ⟨⟨k', m'⟩, hmem, h⟩
    obtain ⟨d', hd', h⟩ := Option.map_eq_some_iff.mp h
    obtain ⟨rfl, rfl, rfl⟩ : k' = k ∧ m' = m ∧ d' = d := by simpa using h
    exact ⟨(ops.get?_eq_some_iff _ _).mpr hmem, hd'⟩
  · rintro ⟨hops, hlookup⟩
    exact ⟨(k, m), (ops.get?_eq_some_iff _ _).mp hops, by simp [hlookup]⟩

/-- The names in the order of application are distinct. -/
theorem sortedOps_nodup (lookup : OperatorLookup) (ops : ParameterPolicy) :
    (sortedOps lookup ops).Pairwise fun a b => a.1 ≠ b.1 := by
  have hfilter : (ops.members.filterMap fun e =>
      (lookup.get? e.1).map fun d => ((e.1, e.2, d) : OperatorEntry)).Pairwise fun a b =>
        a.1 ≠ b.1 := by
    rw [List.pairwise_filterMap]
    refine (List.pairwise_map.mp ops.nodup).imp fun {a b} hab e he e' he' => ?_
    obtain ⟨d, -, rfl⟩ := Option.map_eq_some_iff.mp he
    obtain ⟨d', -, rfl⟩ := Option.map_eq_some_iff.mp he'
    exact hab
  exact hfilter.perm (List.perm_insertionSort _ _).symm fun h => h.symm

theorem order_injective {a b : PolicyOperator} (h : a.order = b.order) : a = b := by
  cases a <;> cases b <;> first | rfl | norm_num [order] at h

/-- An applied operator of a combined parameter is a standard one. -/
theorem standard_of_mem_sortedOps {ops : ParameterPolicy} (hc : Combined U ops) {e : OperatorEntry}
    (he : e ∈ sortedOps operators ops) :
    ∃ (op : PolicyOperator) (m : Json), e = (op.text, m, op.definition) ∧ op.Valued U m ∧
      ops.get? op.text = some m := by
  obtain ⟨k, m, d⟩ := e
  obtain ⟨hops, hd⟩ := mem_sortedOps.mp he
  obtain ⟨op, rfl, hvalued⟩ := hc.known k m hops
  simp only [operators_get?, ofText?_text, Option.map_some, Option.some.injEq] at hd
  exact ⟨op, m, by simp [hd], hvalued, hops⟩

/-- Applying the operators of a combined parameter establishes each of them. -/
theorem applyOperators_holds (he : EquivOn deepEqual isComparableElement U) {path : String}
    {ops : ParameterPolicy} (hcomb : Combined U ops) {c c' : Option Json}
    (hc : ParameterDrawn U c) (h : applyOperators path (sortedOps operators ops) c = .ok c') :
    ParameterDrawn U c' ∧
      ∀ (op : PolicyOperator) m, ops.get? op.text = some m → op.Holds m c' := by
  have hkeepDrawn : ∀ e ∈ sortedOps operators ops, ∀ s s', ParameterDrawn U s →
      applyOperator path s e = .ok s' → ParameterDrawn U s' := by
    intro e hmem s s' hs happly
    obtain ⟨op, m, rfl, hvalued, -⟩ := standard_of_mem_sortedOps hcomb hmem
    exact effect_drawn hvalued hs (applyOperator_effect happly)
  have hsorted : (sortedOps operators ops).Pairwise fun a b =>
      a.2.2.order ≤ b.2.2.order ∧ a.1 ≠ b.1 :=
    (List.pairwise_insertionSort _ _).and (sortedOps_nodup operators ops)
  have hall := Pipeline.run_establishes
    (fun e s => ∃ op : PolicyOperator, e.1 = op.text ∧ op.Holds e.2.1 s) hsorted hkeepDrawn
    (fun e hmem s s' _ happly => by
      obtain ⟨op, m, rfl, hvalued, -⟩ := standard_of_mem_sortedOps hcomb hmem
      exact ⟨op, rfl, holds_of_effect he hvalued (applyOperator_effect happly)⟩)
    (fun a ha b hb hab s s' hs hpost happly => by
      obtain ⟨opA, ma, rfl, hva, hma⟩ := standard_of_mem_sortedOps hcomb ha
      obtain ⟨opB, mb, rfl, hvb, hmb⟩ := standard_of_mem_sortedOps hcomb hb
      obtain ⟨op, hname, hholds⟩ := hpost
      obtain rfl := text_injective hname
      have hne : opA ≠ opB := fun h => hab.2 (congrArg text h)
      have hlt : opA.order < opB.order := lt_of_le_of_ne hab.1 fun h => hne (order_injective h)
      exact ⟨opA, rfl, holds_keep he hlt (hcomb.combines opA opB hne ma mb hma hmb) hva hvb hs
        hholds (applyOperator_effect happly)⟩) hc h
  refine ⟨Pipeline.run_invariant (ParameterDrawn U) hkeepDrawn hc h, fun op m hm => ?_⟩
  have hmem : (op.text, m, op.definition) ∈ sortedOps operators ops :=
    mem_sortedOps.mpr ⟨hm, by simp [operators_get?]⟩
  obtain ⟨op', hname, hholds⟩ := hall _ hmem
  exact text_injective hname ▸ hholds

/-- So does applying the policy of a combined parameter other than `scope`. -/
theorem applyParameter_holds (he : EquivOn deepEqual isComparableElement U)
    {numberText : Rat → String} {entityType paramName : String} {ops : ParameterPolicy}
    (hcomb : Combined U ops) (hscope : paramName ≠ "scope") {c c' : Option Json}
    (hc : ParameterDrawn U c)
    (h : applyParameter numberText operators entityType paramName ops c = .ok c') :
    ParameterDrawn U c' ∧
      ∀ (op : PolicyOperator) m, ops.get? op.text = some m → op.Holds m c' := by
  simp only [applyParameter, hscope, if_false] at h
  split at h
  · simp at h
  split at h
  · split at h
    · rename_i hempty
      obtain rfl := Except.ok.inj h
      refine ⟨hc, fun op m hm => ?_⟩
      have hmem : (op.text, m, op.definition) ∈ sortedOps operators ops :=
        mem_sortedOps.mpr ⟨hm, by simp [operators_get?]⟩
      simp [List.isEmpty_iff.mp hempty] at hmem
    · simp at h
  · have happly : applyOperators s!"{entityType}.{paramName}" (sortedOps operators ops) c = .ok c' := by
      split at h <;> exact h
    exact applyOperators_holds he hcomb hc happly

/-! ## The law -/

/-- The elements of an array, or the value itself where `deepEqual` may be asked about it. -/
def elementsOf : Json → Set Json
  | .arr l => {x | x ∈ l}
  | .num q => {.num q}
  | .str s => {.str s}
  | .obj l => {.obj l}
  | _ => ∅

theorem drawnFrom_iff {v : Json} : DrawnFrom U v ↔ elementsOf v ⊆ U := by
  cases v <;> simp [DrawnFrom, elementsOf, Set.subset_def]

/-- What the statements state on a parameter, element by element. -/
def statedElements (stmts : List PolicyStatement) (entityType paramName : String) : Set Json :=
  {x | ∃ stmt ∈ stmts, ∃ stated, stmt.parameterPolicy entityType paramName = some stated ∧
    ∃ (op : PolicyOperator) (v : Json), stated.get? op.text = some v ∧ x ∈ elementsOf v}

/-- What the statements state and the metadata have for a parameter, element by element. -/
def parameterElements (stmts : List PolicyStatement) (metadata : FederationMetadata)
    (entityType paramName : String) : Set Json :=
  statedElements stmts entityType paramName ∪
    {x | ∃ v, metadataParameter metadata entityType paramName = some v ∧ x ∈ elementsOf v}

theorem drawnAt_of_subset {stmts : List PolicyStatement} {entityType paramName : String}
    (h : statedElements stmts entityType paramName ⊆ U) :
    ∀ stmt ∈ stmts, stmt.DrawnAt U entityType paramName :=
  fun stmt hs ops hops op v hv =>
    drawnFrom_iff.mpr fun _ hx => h ⟨stmt, hs, ops, hops, op, v, hv, hx⟩

/-- The metadata that have come out meet every operator that the statements state on a parameter. -/
def NotLoosened (stmts : List PolicyStatement) (result : FederationMetadata)
    (entityType paramName : String) : Prop :=
  (result.get? entityType).isSome → ∀ stmt ∈ stmts, ∀ stated,
    stmt.parameterPolicy entityType paramName = some stated →
    ∀ (op : PolicyOperator) v, stated.get? op.text = some v →
      op.Satisfies v (metadataParameter result entityType paramName)

/-- Metadata accepted and completed by the merged policy of a chain meet every operator of every
statement of the chain, for each parameter but `scope` whose elements are in `U`. -/
def NoLoosening (U : Set Json) : Prop :=
  ∀ (numberText : Rat → String) (stmts : List PolicyStatement) (merged : ResolvedMetadataPolicy)
    (metadata result : FederationMetadata), resolveMetadataPolicy stmts = .ok merged →
    applyMetadataPolicy numberText metadata merged = .ok result →
    ∀ entityType, ∀ paramName ≠ "scope",
      parameterElements stmts metadata entityType paramName ⊆ U →
      NotLoosened stmts result entityType paramName

theorem noLoosening_of_equivOn (he : EquivOn deepEqual isComparableElement U) : NoLoosening U := by
  intro numberText stmts merged metadata result hmerge happly entityType paramName hscope helements
    _ stmt hstmt stated hstated op v hv
  obtain ⟨hstmts, hmetadata⟩ := Set.union_subset_iff.mp helements
  have hinv := resolveMetadataPolicy_chainInv he.refl (drawnAt_of_subset hstmts) hmerge
  obtain ⟨hvalued, ops, m, hops, hm, href⟩ := hinv.refines stmt hstmt stated hstated op v hv
  have hcomb := hinv.combined ops hops
  obtain ⟨lookup, hl, hupdate⟩ := applyMetadataPolicy_eq_ok.mp happly
  obtain rfl : operators = lookup := Except.ok.inj (buildOperatorLookup_standard.symm.trans hl)
  have hstep := applied_parameter hupdate entityType paramName
  rw [hops] at hstep
  have hbefore : ParameterDrawn U (metadataParameter metadata entityType paramName) :=
    fun w hw => drawnFrom_iff.mpr fun _ hx => hmetadata ⟨w, hw, hx⟩
  obtain ⟨hdrawn, hholds⟩ := applyParameter_holds he hcomb hscope hbefore hstep
  obtain ⟨op', hname, hmvalued⟩ := hcomb.known _ m hm
  obtain rfl := text_injective hname
  exact satisfies_of_holds he hmvalued hvalued hdrawn href (hholds op' m hm)

/-! ## Where the law needs an equivalence

One statement with two operators on one parameter shows each law of an equivalence that fails. -/

/-- Metadata, or a policy, on one parameter only. -/
def onContacts {α : Type} (v : α) : Dict String (Dict String α) :=
  Dict.empty.set "openid_relying_party" (Dict.empty.set "contacts" v)

def twoOperators (a b : PolicyOperator) (va vb : Json) : ParameterPolicy :=
  (Dict.empty.set a.text va).set b.text vb

theorem resolve_onContacts {ops : ParameterPolicy}
    (h : mergeOperators operators "openid_relying_party.contacts" ops .empty = .ok (some ops)) :
    resolveMetadataPolicy [{ metadataPolicy := some (onContacts ops) }] = .ok (onContacts ops) := by
  have hparam : mergeParameter operators "openid_relying_party" "contacts" ops none =
      .ok (some ops) := h
  have htype : mergeEntityType operators "openid_relying_party" (Dict.empty.set "contacts" ops)
      none = .ok (some (Dict.empty.set "contacts" ops)) := by
    have hone := Dict.updateM_singleton (mergeParameter operators "openid_relying_party")
      "contacts" ops .empty hparam
    change (Dict.updateM (mergeParameter operators "openid_relying_party") [("contacts", ops)]
      Dict.empty >>= fun d => Except.ok (some d)) = _
    rw [hone]
    rfl
  refine resolveMetadataPolicy_eq_ok.mpr ⟨operators, rfl, rfl, ?_⟩
  simp only [List.foldrM_cons, List.foldrM_nil, pure_bind]
  exact Dict.updateM_singleton (mergeEntityType operators) "openid_relying_party" _ .empty htype

theorem apply_onContacts {numberText : Rat → String} {ops : ParameterPolicy} {items : List Json}
    {c' : Json} (hops : readsBuiltin operators ops = false)
    (h : applyOperators "openid_relying_party.contacts" (sortedOps operators ops)
      (some (.arr items)) = .ok (some c')) :
    applyMetadataPolicy numberText (onContacts (.arr items)) (onContacts ops) =
      .ok (onContacts c') := by
  have hparam : applyParameter numberText operators "openid_relying_party" "contacts" ops
      (some (.arr items)) = .ok (some c') := by
    simp only [applyParameter, hops]
    exact h
  have htype : applyEntityType numberText operators "openid_relying_party"
      (Dict.empty.set "contacts" ops) (some (Dict.empty.set "contacts" (.arr items))) =
      .ok (some (Dict.empty.set "contacts" c')) := by
    have hone := Dict.updateM_singleton
      (applyParameter numberText operators "openid_relying_party") "contacts" ops
      (Dict.empty.set "contacts" (.arr items)) hparam
    change (Dict.updateM (applyParameter numberText operators "openid_relying_party")
      [("contacts", ops)] (Dict.empty.set "contacts" (.arr items)) >>=
        fun d => Except.ok (some d)) = _
    rw [hone]
    rfl
  exact applyMetadataPolicy_eq_ok.mpr ⟨operators, rfl, Dict.updateM_singleton
    (applyEntityType numberText operators) "openid_relying_party" _ (onContacts _) htype⟩

theorem mergeOperator_first {op : PolicyOperator} {v : Json} (h : op.allowsValue v = true)
    (path : String) : mergeOperator operators path op.text v none = .ok (some v) := by
  simp [mergeOperator, Dict.read, operators_get?, readOr_of_not_inherited _ op.not_inherited,
    (validateStandard_eq_none op v).mpr h]

/-- Two operators that combine are merged as they stand. -/
theorem mergeOperators_two {a b : PolicyOperator} (hab : a ≠ b) {va vb : Json}
    (ha : a.allowsValue va = true) (hb : b.allowsValue vb = true)
    (hcomb : a.combinesWith b va vb = true) (hcomb' : b.combinesWith a vb va = true)
    (path : String) : mergeOperators operators path (twoOperators a b va vb) .empty =
      .ok (some (twoOperators a b va vb)) := by
  have hne : a.text ≠ b.text := fun h => hab (text_injective h)
  have hmembers : (twoOperators a b va vb).members = [(a.text, va), (b.text, vb)] := by
    simp [twoOperators, Dict.set, Dict.empty, setMembers, hne]
  have hupdate : Dict.updateM (mergeOperator operators path) [(a.text, va), (b.text, vb)] .empty =
      .ok (twoOperators a b va vb) := by
    simp [Dict.updateM, mergeOperator_first ha, mergeOperator_first hb, Dict.get?_set, hne.symm,
      bind, Except.bind, pure, Except.pure, twoOperators, Dict.put]
  have hcheck : checkCombinations operators path [(a.text, va), (b.text, vb)] = .ok () :=
    checkCombinations_eq_ok.mpr (by simp [combine_standard, hcomb, hcomb'])
  simp only [mergeOperators, hmembers, hupdate, bind, Except.bind, hcheck, pure, Except.pure]

theorem eq_of_onContacts {α : Type} {v w : α} {entityType paramName : String}
    (h : ((onContacts v).get? entityType).bind (·.get? paramName) = some w) : w = v := by
  simp only [onContacts, Dict.get?_set, Dict.get?_empty] at h
  split at h
  · simp only [Option.bind_some, Dict.get?_set, Dict.get?_empty] at h
    split at h
    · exact (Option.some.inj h).symm
    · simp at h
  · simp at h

/-- The law on a statement with two operators that combine, and metadata that they turn into
`c'`. -/
theorem NoLoosening.two (hlaw : NoLoosening U) (a b : PolicyOperator) (va vb : Json)
    (items : List Json) (c' : Json) (hab : a ≠ b) (ha : a.Valued U va) (hb : b.Valued U vb)
    (hcomb : a.combinesWith b va vb = true) (hcomb' : b.combinesWith a vb va = true)
    (hread : readsBuiltin operators (twoOperators a b va vb) = false)
    (hitems : ∀ x ∈ items, x ∈ U)
    (happly : applyOperators "openid_relying_party.contacts"
      (sortedOps operators (twoOperators a b va vb)) (some (.arr items)) = .ok (some c')) :
    a.Satisfies va (some c') := by
  have hne : a.text ≠ b.text := fun h => hab (text_injective h)
  have hvalues : ∀ (op : PolicyOperator) v, (twoOperators a b va vb).get? op.text = some v →
      elementsOf v ⊆ U := by
    intro op v hv
    simp only [twoOperators, Dict.get?_set, Dict.get?_empty] at hv
    split at hv
    · exact drawnFrom_iff.mp (Option.some.inj hv ▸ hb.drawn)
    · split at hv
      · exact drawnFrom_iff.mp (Option.some.inj hv ▸ ha.drawn)
      · simp at hv
  have hget : (twoOperators a b va vb).get? a.text = some va := by
    simp [twoOperators, Dict.get?_set, hne]
  refine hlaw (fun _ => "") [{ metadataPolicy := some (onContacts (twoOperators a b va vb)) }] _
    (onContacts (.arr items)) (onContacts c')
    (resolve_onContacts (mergeOperators_two hab ha.allowed hb.allowed hcomb hcomb' _))
    (apply_onContacts hread happly) "openid_relying_party" "contacts" (by decide) ?_ rfl _
    List.mem_cons_self (twoOperators a b va vb) rfl a va hget
  rintro x (⟨stmt, hstmt, ops, hops, op, v, hv, hx⟩ | ⟨v, hv, hx⟩)
  · obtain rfl := List.mem_singleton.mp hstmt
    obtain rfl : twoOperators a b va vb = ops := Option.some.inj hops
    exact hvalues op v hv hx
  · obtain rfl := eq_of_onContacts hv
    exact hitems x hx

theorem NoLoosening.refl (hlaw : NoLoosening U) {x : Json} (hx : x ∈ U) :
    deepEqual x x = true := by
  have hsat := hlaw.two value essential (.arr [x]) (.bool true) [] (.arr [x]) (by decide)
    ⟨rfl, by simpa [DrawnFrom] using hx⟩ ⟨rfl, trivial⟩ rfl rfl rfl (by simp) rfl
  obtain ⟨w, hw, heq⟩ : ∃ w, some (Json.arr [x]) = some w ∧ deepEqual w (.arr [x]) = true := hsat
  obtain rfl := Option.some.inj hw
  obtain ⟨-, h⟩ := deepEqual_arr_arr.mp heq
  simpa using h 0 x rfl

theorem valued_singleton {op : PolicyOperator} (hop : ∀ v, op.allowsValue v = isComparableArray v)
    {x : Json} (hx : x ∈ U) (hc : isComparableElement x = true) : op.Valued U (.arr [x]) :=
  valued_arr hop (by simp [hx, hc])

/-- What is added lies in the value, so nothing may be appended to it. -/
theorem NoLoosening.symm (hlaw : NoLoosening U) {x y : Json} (hx : x ∈ U) (hy : y ∈ U)
    (hcx : isComparableElement x = true) (hcy : isComparableElement y = true)
    (hxy : deepEqual x y = true) : deepEqual y x = true := by
  have hsub : isSubset [x] [y] = true := by simp [isSubset, UpTo.subset, hxy]
  have happly : applyOperators "openid_relying_party.contacts"
      (sortedOps operators (twoOperators value add (.arr [y]) (.arr [x]))) (some (.arr [])) =
      .ok (some (.arr (arrayUnion [y] [x]))) := by
    have hadd : add.apply (some (.arr [y])) (.arr [x]) =
        .ok { value := some (.arr (arrayUnion [y] [x])) } := by
      refine configured_eq_ok.mpr ⟨by simp [allowsValue, isComparableArray, hcx], ?_⟩
      simp [supports, isComparableArray, hcy, applyPresent]
    change (applyOperator _ (some (.arr [y])) ("add", .arr [x], addOperator) >>= fun c => .ok c) = _
    simp only [applyOperator, addOperator, definition, hadd]
    rfl
  have hsat := hlaw.two value add (.arr [y]) (.arr [x]) [] (.arr (arrayUnion [y] [x])) (by decide)
    ⟨rfl, by simpa [DrawnFrom] using hy⟩ (valued_singleton (fun _ => rfl) hx hcx) hsub hsub rfl
    (by simp) happly
  obtain ⟨w, hw, heq⟩ : ∃ w, some (Json.arr (arrayUnion [y] [x])) = some w ∧
    deepEqual w (.arr [y]) = true := hsat
  obtain rfl := Option.some.inj hw
  obtain ⟨hlen, -⟩ := deepEqual_arr_arr.mp heq
  by_contra hyx
  simp [arrayUnion, UpTo.union, hyx] at hlen

/-- What is published counts as what is added, so the intersection may not drop it. -/
theorem NoLoosening.trans (hlaw : NoLoosening U) {x y z : Json} (hx : x ∈ U) (hy : y ∈ U)
    (hz : z ∈ U) (hcx : isComparableElement x = true) (hcy : isComparableElement y = true)
    (hcz : isComparableElement z = true) (hxy : deepEqual x y = true)
    (hyz : deepEqual y z = true) : deepEqual x z = true := by
  have hcomb : (isComparableArray (.arr [y]) && isComparableArray (.arr [z]) &&
      isSubset [y] [z]) = true := by
    simp [isComparableArray, hcy, hcz, isSubset, UpTo.subset, hyz]
  have hcomb' : (isComparableArray (.arr [z]) && isComparableArray (.arr [y]) &&
      isSubset [y] [z]) = true := by
    simp [isComparableArray, hcy, hcz, isSubset, UpTo.subset, hyz]
  have happly : applyOperators "openid_relying_party.contacts"
      (sortedOps operators (twoOperators add subsetOf (.arr [y]) (.arr [z]))) (some (.arr [x])) =
      .ok (some (.arr (arrayIntersection [x] [z]))) := by
    have hadd : add.apply (some (.arr [x])) (.arr [y]) = .ok { value := some (.arr [x]) } := by
      refine configured_eq_ok.mpr ⟨by simp [allowsValue, isComparableArray, hcy], ?_⟩
      simp [supports, isComparableArray, hcx, applyPresent, arrayUnion, UpTo.union, hxy]
    have hsub : subsetOf.apply (some (.arr [x])) (.arr [z]) =
        .ok { value := some (.arr (arrayIntersection [x] [z])) } := by
      refine configured_eq_ok.mpr ⟨by simp [allowsValue, isComparableArray, hcz], ?_⟩
      simp [supports, isComparableArray, hcx, applyPresent]
    change (applyOperator _ (some (.arr [x])) ("add", .arr [y], addOperator) >>= fun c =>
      applyOperator _ c ("subset_of", .arr [z], subsetOfOperator) >>= fun c => .ok c) = _
    simp only [applyOperator, addOperator, subsetOfOperator, definition, hadd]
    change (applyOperator _ (some (.arr [x])) ("subset_of", .arr [z], subsetOfOperator) >>=
      fun c => .ok c) = _
    simp only [applyOperator, subsetOfOperator, definition, hsub]
    rfl
  have hsat := hlaw.two add subsetOf (.arr [y]) (.arr [z]) [x]
    (.arr (arrayIntersection [x] [z])) (by decide) (valued_singleton (fun _ => rfl) hy hcy)
    (valued_singleton (fun _ => rfl) hz hcz) hcomb hcomb' rfl (by simpa using hx) happly
  obtain ⟨l, hl, hcov⟩ : ∃ l, some (Json.arr (arrayIntersection [x] [z])) = some (.arr l) ∧
    Covers deepEqual l [y] := hsat
  obtain rfl : arrayIntersection [x] [z] = l := by simpa using hl
  obtain ⟨w, hw, -⟩ := hcov y List.mem_cons_self
  obtain ⟨hwx, v, hv, hr⟩ := mem_inter.mp hw
  obtain rfl := List.mem_singleton.mp hwx
  exact List.mem_singleton.mp hv ▸ hr

/-- No subordinate loosens a superior's policy over `U` exactly when `deepEqual` is reflexive on
`U`, and symmetric and transitive on the strings, numbers and objects of `U`. -/
theorem noLoosening_iff (U : Set Json) :
    NoLoosening U ↔ EquivOn deepEqual isComparableElement U :=
  ⟨fun hlaw =>
    { refl := fun _ hx => hlaw.refl hx
      symm := fun _ hx _ hy hcx hcy hxy => hlaw.symm hx hy hcx hcy hxy
      trans := fun _ hx _ hy _ hz hcx hcy hcz hxy hyz => hlaw.trans hx hy hz hcx hcy hcz hxy hyz },
    noLoosening_of_equivOn⟩

/-- So it holds over plain values. -/
theorem noLoosening_plain : NoLoosening {a | Plain a} :=
  noLoosening_of_equivOn deepEqual_equivOn_plain

end OidFed
