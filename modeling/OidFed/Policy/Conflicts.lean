import OidFed.Policy.Satisfiable

/-!
# Conflicts that the merge of a chain does not detect

* `OperatorStep`: what one statement does to one operator of a parameter.
* `Traced`: what a merged parameter shows of the statements: which operators are stated, the value
  stated nearest to the anchor, the strings and numbers that every list has.
* `satisfiable_iff`: some value of a merged parameter passes exactly when the types of what the
  statements say agree (`TypesAgree`). The values are any that `JSON.parse` makes.
-/

namespace OidFed

open Js UpTo PolicyOperator

variable {U : Set Json} {ops : ParameterPolicy}

/-! ## What the statements say -/

/-- What one statement does to one standard operator of a parameter. -/
def OperatorStep (op : PolicyOperator) (stated before after : Option Json) : Prop :=
  match stated with
  | none => after = before
  | some v => (before = none ∧ after = some v) ∨
      ∃ m m', before = some m ∧ after = some m' ∧ op.mergeValues m v = .ok m'

theorem ParameterStep.operator {entityType paramName : String}
    {stated before after : Option ParameterPolicy}
    (h : ParameterStep operators entityType paramName stated before after) (op : PolicyOperator) :
    OperatorStep op (stated.bind (·.get? op.text)) (before.bind (·.get? op.text))
      (after.bind (·.get? op.text)) := by
  cases stated with
  | none =>
    obtain rfl : after = before := h
    rfl
  | some opEntries =>
    have hmerge : ∀ cur : ParameterPolicy, cur.get? op.text = before.bind (·.get? op.text) →
        mergeOperators operators s!"{entityType}.{paramName}" opEntries cur = .ok after →
        OperatorStep op (opEntries.get? op.text) (before.bind (·.get? op.text))
          (after.bind (·.get? op.text)) := by
      intro cur hcur hok
      obtain ⟨ops, rfl, -, hstep, hother⟩ := mergeOperators_eq_ok hok
      rw [← hcur]
      cases hv : opEntries.get? op.text with
      | none => exact hother _ hv
      | some v =>
        rcases mergeOperator_standard (hstep _ v hv) with ⟨hnone, -⟩ | ⟨op', hname, -, hcase⟩
        · simp at hnone
        obtain rfl := text_injective hname
        exact hcase
    simp only [ParameterStep, mergeParameter] at h
    cases before with
    | some cur => exact hmerge cur rfl h
    | none =>
      unfold readOr at h
      cases hb : objectPrototype.lookup paramName with
      | none => rw [hb] at h; exact hmerge .empty rfl h
      | some b =>
        -- an inherited parameter: nothing known was stated
        rw [hb] at h
        obtain ⟨⟨⟩, hall, hafter⟩ := bind_eq_ok.mp h
        obtain rfl : none = after := Except.ok.inj hafter
        cases hv : opEntries.get? op.text with
        | none => simp [OperatorStep, hv]
        | some v =>
          have hmem := Pipeline.forM_eq_ok hall _ ((opEntries.get?_eq_some_iff _ _).mp hv)
          simpa using mergeOperatorOutside_eq_ok hmem

/-- No merged parameter is inherited. -/
theorem ParameterStep.name {entityType paramName : String}
    {stated before after : Option ParameterPolicy}
    (h : ParameterStep operators entityType paramName stated before after)
    (hbefore : before.isSome → inherited paramName = false) :
    after.isSome → inherited paramName = false := by
  cases stated with
  | none =>
    obtain rfl : after = before := h
    exact hbefore
  | some opEntries =>
    intro hafter
    cases before with
    | some cur => exact hbefore rfl
    | none =>
      cases hi : inherited paramName with
      | false => rfl
      | true =>
        obtain ⟨b, hb⟩ := Option.isSome_iff_exists.mp hi
        simp only [ParameterStep, mergeParameter, readOr, hb] at h
        obtain ⟨⟨⟩, -, hnone⟩ := bind_eq_ok.mp h
        obtain rfl : none = after := Except.ok.inj hnone
        simp at hafter

/-- What a merged parameter shows of the statements. -/
structure Traced (entityType paramName : String) (done : List PolicyStatement)
    (merged : Option ParameterPolicy) : Prop where
  name : merged.isSome → inherited paramName = false
  stated : ∀ op : PolicyOperator, (merged.bind (·.get? op.text)).isSome ↔
    statedValues entityType paramName op done ≠ []
  -- the value is the one stated nearest to the anchor
  value : merged.bind (·.get? value.text) =
    (statedValues entityType paramName value done).getLast?
  listed : ∀ m, merged.bind (·.get? oneOf.text) = some m → ∀ x, isStringOrNumber x = true →
    (x ∈ asItems m ↔ ∀ v ∈ statedValues entityType paramName oneOf done, x ∈ asItems v)

section Statements

variable {entityType paramName : String} {stmt : PolicyStatement} {done : List PolicyStatement}

theorem traced_nil : Traced entityType paramName [] none :=
  ⟨by simp, by simp [statedValues], rfl, by simp⟩

/-- A string or a number lies in an intersection when it lies in both lists. -/
theorem mem_intersection {l k : List Json} {x : Json} (hx : isStringOrNumber x = true) :
    x ∈ arrayIntersection l k ↔ x ∈ l ∧ x ∈ k := by
  have hscalar : isContainer x = false := by
    cases x <;> simp_all [isStringOrNumber, isContainer, Json.isArray, Json.isObject]
  rw [arrayIntersection, mem_inter]
  refine and_congr_right fun _ => ⟨?_, fun hk => ⟨x, hk, ?_⟩⟩
  · rintro ⟨y, hy, hxy⟩
    obtain rfl := (deepEqual_of_scalar hscalar y).mp hxy
    exact hy
  · exact (deepEqual_of_scalar hscalar x).mpr rfl

theorem traced_step {before after : Option ParameterPolicy}
    (h : Traced entityType paramName done before)
    (hstep : ParameterStep operators entityType paramName
      (stmt.parameterPolicy entityType paramName) before after) :
    Traced entityType paramName (stmt :: done) after := by
  have hop := fun op => hstep.operator op
  refine ⟨hstep.name h.name, fun op => ?_, ?_, fun m hm x hx => ?_⟩
  · cases hv : (stmt.parameterPolicy entityType paramName).bind (·.get? op.text) with
    | none =>
      have hsame := hop op
      rw [hv] at hsame
      rw [statedValues_none hv, show after.bind (·.get? op.text) = _ from hsame]
      exact h.stated op
    | some v =>
      have hcase := hop op
      rw [hv] at hcase
      rw [statedValues_some hv]
      rcases hcase with ⟨-, hafter⟩ | ⟨m, m', -, hafter, -⟩ <;> simp [hafter]
  · -- merged values of `value` are one value: the last one stated is as good as the first
    cases hv : (stmt.parameterPolicy entityType paramName).bind (·.get? value.text) with
    | none =>
      have hsame := hop value
      rw [hv] at hsame
      rw [statedValues_none hv, show after.bind (·.get? value.text) = _ from hsame]
      exact h.value
    | some v =>
      have hcase := hop value
      rw [hv] at hcase
      rw [statedValues_some hv]
      rcases hcase with ⟨hbefore, hafter⟩ | ⟨m, m', hbefore, hafter, hmerge⟩
      · have hnil : statedValues entityType paramName value done = [] := by
          by_contra hne
          simpa [hbefore] using (h.stated value).mpr hne
        simp [hafter, hnil]
      · obtain ⟨rfl, -⟩ := mergeValues_equal (.inl rfl) hmerge
        have hlast := h.value
        rw [hbefore] at hlast
        rw [hafter, hlast]
        have hne : statedValues entityType paramName value done ≠ [] := by
          intro hnil
          simp [hnil] at hlast
        exact (List.getLast?_cons_of_ne_nil hne).symm
  · -- those of `one_of` are the intersection of what has been stated
    cases hv : (stmt.parameterPolicy entityType paramName).bind (·.get? oneOf.text) with
    | none =>
      have hsame := hop oneOf
      rw [hv] at hsame
      rw [statedValues_none hv]
      exact h.listed m (hsame.symm.trans hm) x hx
    | some v =>
      have hcase := hop oneOf
      rw [hv] at hcase
      rw [statedValues_some hv, List.forall_mem_cons]
      rcases hcase with ⟨hbefore, hafter⟩ | ⟨m₀, m', hbefore, hafter, hmerge⟩
      · have hnil : statedValues entityType paramName oneOf done = [] := by
          by_contra hne
          simpa [hbefore] using (h.stated oneOf).mpr hne
        obtain rfl : v = m := Option.some.inj (hafter.symm.trans hm)
        simp [hnil]
      · obtain rfl : m' = m := Option.some.inj (hafter.symm.trans hm)
        simp only [mergeValues] at hmerge
        split at hmerge
        · simp at hmerge
        · obtain rfl := Except.ok.inj hmerge
          rw [asItems_arr, mem_intersection hx, h.listed m₀ hbefore x hx, and_comm]

/-- The types of what the statements say on a parameter agree: the array fixed nearest to the
anchor has elements that can be compared where some statement asks for that, and where one states
a default, some string or number is in every list of allowed values. -/
structure TypesAgree (entityType paramName : String) (stmts : List PolicyStatement) : Prop where
  fixed : ∀ l, (statedValues entityType paramName value stmts).getLast? = some (.arr l) →
    (∃ op ∈ arrayOperators, statedValues entityType paramName op stmts ≠ []) →
    ∀ x ∈ l, isComparableElement x = true
  listed : statedValues entityType paramName default stmts ≠ [] →
    statedValues entityType paramName oneOf stmts ≠ [] → ∃ x, isStringOrNumber x = true ∧
      ∀ v ∈ statedValues entityType paramName oneOf stmts, x ∈ asItems v

theorem agree_iff_of_traced {stmts : List PolicyStatement}
    (h : Traced entityType paramName stmts (some ops)) :
    OperatorsAgree ops ↔ TypesAgree entityType paramName stmts := by
  have hstated : ∀ op : PolicyOperator, (ops.get? op.text).isSome ↔
      statedValues entityType paramName op stmts ≠ [] := h.stated
  have hvalue : ops.get? value.text = (statedValues entityType paramName value stmts).getLast? :=
    h.value
  constructor
  · intro hagree
    refine ⟨fun l hl harray => ?_, fun hdefault hone => ?_⟩
    · obtain ⟨op, hop, hne⟩ := harray
      exact hagree.fixed l (hvalue.trans hl) ⟨op, hop, (hstated op).mpr hne⟩
    · obtain ⟨m, hm⟩ := Option.isSome_iff_exists.mp ((hstated oneOf).mpr hone)
      obtain ⟨x, hx, htext⟩ := hagree.listed ((hstated default).mpr hdefault) m hm
      exact ⟨x, htext, (h.listed m hm x htext).mp hx⟩
  · intro hagree
    refine ⟨fun l hl harray => ?_, fun hdefault m hm => ?_⟩
    · obtain ⟨op, hop, hsome⟩ := harray
      exact hagree.fixed l (hvalue.symm.trans hl) ⟨op, hop, (hstated op).mp hsome⟩
    · obtain ⟨x, htext, hall⟩ := hagree.listed ((hstated default).mp hdefault)
        ((hstated oneOf).mp (by simp [hm]))
      exact ⟨x, (h.listed m hm x htext).mpr hall, htext⟩

section Merged

variable {stmts : List PolicyStatement} {merged : ResolvedMetadataPolicy}
  {ops : ParameterPolicy}

theorem traced_of_resolve (hmerge : resolveMetadataPolicy stmts = .ok merged)
    (hops : parameterPolicy merged entityType paramName = some ops) :
    Traced entityType paramName stmts (some ops) := by
  obtain ⟨lookup, hl, -, hfold⟩ := resolveMetadataPolicy_eq_ok.mp hmerge
  obtain rfl : operators = lookup := Except.ok.inj (buildOperatorLookup_standard.symm.trans hl)
  rw [← hops]
  exact resolveMetadataPolicy_induct (Traced entityType paramName) traced_nil
    (fun _ _ _ _ hbefore hstep => traced_step hbefore hstep) hfold

theorem passes_iff_agree (numberText : Rat → String)
    (hparsed : ∀ stmt ∈ stmts, stmt.Drawn {a | Parsed a})
    (hmerge : resolveMetadataPolicy stmts = .ok merged)
    (hops : parameterPolicy merged entityType paramName = some ops) (hscope : paramName ≠ "scope")
    (hone : ops.get? oneOf.text ≠ some (.arr [])) :
    (∃ c c', applyParameter numberText operators entityType paramName ops c = .ok c') ↔
      OperatorsAgree ops := by
  have hrefl : ∀ x ∈ {a | Parsed a}, deepEqual x x = true := fun x hx => deepEqual_refl_parsed x hx
  have hchain := resolveMetadataPolicy_chainInv hrefl
    (fun stmt hs => (hparsed stmt hs).at entityType paramName) hmerge
  have hc := hchain.combined ops hops
  have hname := (traced_of_resolve hmerge hops).name rfl
  refine applyParameter_isOk_iff hc hrefl hname hscope fun m hm hnil => ?_
  obtain ⟨op, htext, hvalued⟩ := hc.known _ m hm
  obtain rfl : op = oneOf := text_injective htext
  obtain ⟨j, rfl, -⟩ := hvalued.array rfl
  obtain rfl : j = [] := hnil
  exact hone hm

/-- Some value, or the absence, of a parameter passes its merged operators exactly when the types of
what the statements say on it agree. -/
theorem satisfiable_iff (numberText : Rat → String)
    (hparsed : ∀ stmt ∈ stmts, stmt.Drawn {a | Parsed a})
    (hmerge : resolveMetadataPolicy stmts = .ok merged)
    (hops : parameterPolicy merged entityType paramName = some ops) (hscope : paramName ≠ "scope")
    (hone : ops.get? oneOf.text ≠ some (.arr [])) :
    (∃ c c', applyParameter numberText operators entityType paramName ops c = .ok c') ↔
      TypesAgree entityType paramName stmts :=
  (passes_iff_agree numberText hparsed hmerge hops hscope hone).trans
    (agree_iff_of_traced (traced_of_resolve hmerge hops))

end Merged

end Statements

/-- The statement with two operators on `contacts`. -/
def statesTwo (a b : PolicyOperator) (va vb : Json) : PolicyStatement :=
  { metadataPolicy := some (onContacts (twoOperators a b va vb)) }

theorem statesTwo_drawn {a b : PolicyOperator} {va vb : Json} (ha : DrawnFrom U va)
    (hb : DrawnFrom U vb) : ∀ stmt ∈ [statesTwo a b va vb], stmt.Drawn U := by
  intro stmt hstmt entityType paramName ops hops op v hv
  obtain rfl := List.mem_singleton.mp hstmt
  obtain rfl := eq_of_onContacts hops
  simp only [twoOperators, Dict.get?_set, Dict.get?_empty] at hv
  split at hv
  · exact Option.some.inj hv ▸ hb
  · split at hv
    · exact Option.some.inj hv ▸ ha
    · simp at hv

theorem parsed_str (s : String) : Parsed (.str s) :=
  .intro _ (by simp [Json.fields]) (by simp [Json.fields])

/-- A parameter with a default that is one of the texts allowed. -/
theorem satisfiable_texts :
    ∃ c c', applyParameter (fun _ => "") operators "openid_relying_party" "contacts"
      (twoOperators default oneOf (.str "ops") (.arr [.str "ops", .str "dev"])) c = .ok c' := by
  have hmerge : resolveMetadataPolicy
      [statesTwo default oneOf (.str "ops") (.arr [.str "ops", .str "dev"])] =
        .ok (onContacts (twoOperators default oneOf (.str "ops") (.arr [.str "ops", .str "dev"]))) :=
    rfl
  have hdrawn : DrawnFrom {a | Parsed a} (.arr [.str "ops", .str "dev"]) := by
    simp [DrawnFrom, parsed_str]
  have htext : DrawnFrom {a | Parsed a} (.str "ops") := parsed_str "ops"
  refine (satisfiable_iff (fun _ => "") (statesTwo_drawn htext hdrawn) hmerge rfl
    (by decide) (by decide)).mpr ⟨fun l hl => ?_, fun _ _ => ⟨.str "ops", rfl, ?_⟩⟩
  · exact absurd (show (none : Option Json) = some (.arr l) from hl) (by simp)
  · intro v hv
    obtain rfl : v = .arr [.str "ops", .str "dev"] := List.mem_singleton.mp hv
    simp

/-- Two conflicts that the merge does not see: a fixed array with a truth value in it, to which
nothing is to be added; and a default text beside a list of objects. No value passes. -/
theorem conflict_undetected :
    let fixed : ParameterPolicy := twoOperators value add (.arr [.bool true]) (.arr [])
    let listed : ParameterPolicy :=
      twoOperators default oneOf (.str "ops") (.arr [.obj [("team", .str "ops")]])
    ∀ ops ∈ [fixed, listed],
      resolveMetadataPolicy [{ metadataPolicy := some (onContacts ops) }] = .ok (onContacts ops) ∧
        ops.get? oneOf.text ≠ some (.arr []) ∧
        ¬ ∃ c c', applyParameter (fun _ => "") operators "openid_relying_party" "contacts" ops c =
          .ok c' := by
  intro fixed listed ops hmem
  have hparsed : Parsed (.obj [("team", .str "ops")]) :=
    .intro _ (by simp [Json.fields]) (by simp [Json.fields, parsed_str])
  rcases List.mem_pair.mp hmem with rfl | rfl
  · have hdrawn : DrawnFrom {a | Parsed a} (.arr [.bool true]) := by
      intro x hx
      obtain rfl := List.mem_singleton.mp hx
      exact .intro _ (by simp [Json.fields]) (by simp [Json.fields])
    have hnone : DrawnFrom {a | Parsed a} (.arr []) := by simp [DrawnFrom]
    have hmerge : resolveMetadataPolicy [statesTwo value add (.arr [.bool true]) (.arr [])] =
        .ok (onContacts fixed) := rfl
    refine ⟨hmerge, by decide, fun hpasses => ?_⟩
    have hagree := (passes_iff_agree (fun _ => "") (statesTwo_drawn hdrawn hnone) hmerge rfl
      (by decide) (by decide)).mp hpasses
    have hcomp := hagree.fixed [.bool true] rfl ⟨add, by decide, by decide⟩ (.bool true) (by simp)
    exact absurd hcomp (by decide)
  · have hdrawn : DrawnFrom {a | Parsed a} (.arr [.obj [("team", .str "ops")]]) := by
      simpa [DrawnFrom] using hparsed
    have hstr : DrawnFrom {a | Parsed a} (.str "ops") := parsed_str "ops"
    have hmerge : resolveMetadataPolicy [statesTwo default oneOf (.str "ops")
        (.arr [.obj [("team", .str "ops")]])] = .ok (onContacts listed) := rfl
    refine ⟨hmerge, by decide, fun hpasses => ?_⟩
    have hagree := (passes_iff_agree (fun _ => "") (statesTwo_drawn hstr hdrawn) hmerge rfl
      (by decide) (by decide)).mp hpasses
    obtain ⟨x, hx, htext⟩ := hagree.listed (by decide) _ rfl
    obtain rfl := List.mem_singleton.mp hx
    exact absurd htext (by decide)

end OidFed
