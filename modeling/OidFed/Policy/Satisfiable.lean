import OidFed.Policy.Mergeable

/-!
# Whether some value of a parameter passes a merged policy

* `applyOperators_eq`: the operators of a merged parameter, applied one after the other in their
  fixed order.
* `applyParameter_isOk_iff`: some value, or the absence, of a parameter passes its merged operators
  exactly when their types agree (`OperatorsAgree`): a fixed array that array operators work on has
  elements they can compare, and a parameter with a default may be a string or a number.

Only reflexivity of `deepEqual` enters.
-/

namespace OidFed

open Js UpTo PolicyOperator

variable {U : Set Json} {ops : ParameterPolicy}

/-! ## The order of application -/

/-- An operator of the parameter applied, where there is one. -/
def applyStated (path : String) (ops : ParameterPolicy) (cur : Option Json)
    (op : PolicyOperator) : Except Stop (Option Json) :=
  match ops.get? op.text with
  | none => .ok cur
  | some m => applyOperator path cur (op.text, m, op.definition)

theorem all_sorted : PolicyOperator.all.Pairwise fun a b => a.order ≤ b.order := by
  simp only [PolicyOperator.all, List.pairwise_cons, List.forall_mem_cons]
  norm_num [order]

/-- The operators of a combined parameter in the order of application. -/
theorem sortedOps_eq (hc : Combined U ops) :
    sortedOps operators ops = PolicyOperator.all.filterMap fun op =>
      (ops.get? op.text).map fun m => ((op.text, m, op.definition) : OperatorEntry) := by
  have hsorted : (sortedOps operators ops).Pairwise fun a b => a.2.2.order ≤ b.2.2.order :=
    List.pairwise_insertionSort _ _
  have hsorted' : (PolicyOperator.all.filterMap fun op => (ops.get? op.text).map fun m =>
      ((op.text, m, op.definition) : OperatorEntry)).Pairwise fun a b =>
        a.2.2.order ≤ b.2.2.order := by
    rw [List.pairwise_filterMap]
    refine all_sorted.imp fun {a b} hab x hx y hy => ?_
    obtain ⟨m, -, rfl⟩ := Option.map_eq_some_iff.mp hx
    obtain ⟨m', -, rfl⟩ := Option.map_eq_some_iff.mp hy
    exact hab
  have hnodup : (sortedOps operators ops).Nodup :=
    (sortedOps_nodup operators ops).imp fun hab h => hab (congrArg Prod.fst h)
  have hnodup' : (PolicyOperator.all.filterMap fun op => (ops.get? op.text).map fun m =>
      ((op.text, m, op.definition) : OperatorEntry)).Nodup := by
    have hall : PolicyOperator.all.Pairwise fun a b => a ≠ b := by decide
    rw [List.Nodup, List.pairwise_filterMap]
    refine hall.imp fun {a b} hab x hx y hy hxy => hab ?_
    obtain ⟨m, -, rfl⟩ := Option.map_eq_some_iff.mp hx
    obtain ⟨m', -, rfl⟩ := Option.map_eq_some_iff.mp hy
    exact text_injective (congrArg Prod.fst hxy)
  have hmem : ∀ e : OperatorEntry, e ∈ sortedOps operators ops ↔
      e ∈ PolicyOperator.all.filterMap fun op =>
        (ops.get? op.text).map fun m => ((op.text, m, op.definition) : OperatorEntry) := by
    intro e
    rw [List.mem_filterMap]
    constructor
    · intro he
      obtain ⟨op, m, rfl, -, hm⟩ := standard_of_mem_sortedOps hc he
      exact ⟨op, mem_all op, by simp [hm]⟩
    · rintro ⟨op, -, he⟩
      obtain ⟨m, hm, rfl⟩ := Option.map_eq_some_iff.mp he
      exact mem_sortedOps.mpr ⟨hm, by simp [operators_get?]⟩
  refine List.Perm.eq_of_pairwise ?_ hsorted hsorted'
    ((List.perm_ext_iff_of_nodup hnodup hnodup').mpr hmem)
  intro a b ha hb hab hba
  obtain ⟨opA, ma, rfl, -, hma⟩ := standard_of_mem_sortedOps hc ha
  obtain ⟨opB, mb, rfl, -, hmb⟩ := standard_of_mem_sortedOps hc ((hmem b).mpr hb)
  obtain rfl : opA = opB := order_injective (le_antisymm hab hba)
  obtain rfl : ma = mb := Option.some.inj (hma.symm.trans hmb)
  rfl

theorem applyOperators_eq (hc : Combined U ops) (path : String) (c : Option Json) :
    applyOperators path (sortedOps operators ops) c =
      PolicyOperator.all.foldlM (applyStated path ops) c := by
  rw [applyOperators, sortedOps_eq hc, List.foldlM_filterMap]
  congr 1
  funext c op
  unfold applyStated
  cases ops.get? op.text <;> rfl

/-! ## Operators that go through -/

section Steps

variable {op : PolicyOperator} {m : Json} {path : String}

theorem applyStated_none (h : ops.get? op.text = none) (c : Option Json) :
    applyStated path ops c op = .ok c := by
  simp only [applyStated, h]

theorem applyStated_some (h : ops.get? op.text = some m) (c : Option Json) :
    applyStated path ops c op = applyOperator path c (op.text, m, op.definition) := by
  simp only [applyStated, h]

/-- A present parameter that the operator works on, and leaves with a value. -/
theorem applyStated_present {v r : Json} (h : ops.get? op.text = some m)
    (hm : op.allowsValue m = true) (hv : op.supports v = true)
    (hr : op.applyPresent v m = .ok { value := some r }) (hnull : r ≠ .null) :
    applyStated path ops (some v) op = .ok (some r) := by
  have happly : op.apply (some v) m = .ok { value := some r } := by
    refine configured_eq_ok.mpr ⟨hm, ?_⟩
    simp only [hv, if_true]
    exact hr
  rw [applyStated_some h]
  simp [applyOperator, definition, happly, hnull]

theorem supports_arr {v : Json} {l : List Json} (hv : v = .arr l)
    (hop : ∀ v, op.supports v = isComparableArray v) (hl : ∀ x ∈ l, isComparableElement x = true) :
    op.supports v = true := by
  rw [hop]
  exact isComparableArray_iff.mpr ⟨l, hv, hl⟩

/-- `value` on an absent parameter. -/
theorem applyStated_value (h : ops.get? value.text = some m) (hm : value.allowsValue m = true) :
    applyStated path ops none value = .ok (if m = .null then none else some m) := by
  rw [applyStated_some h]
  by_cases hnull : m = .null
  · subst hnull
    have happly : value.apply none .null = .ok { value := some .null, removed := true } :=
      configured_eq_ok.mpr ⟨rfl, rfl⟩
    simp [applyOperator, definition, happly]
  · have happly : value.apply none m = .ok { value := some m } := by
      refine configured_eq_ok.mpr ⟨hm, ?_⟩
      simp only [applyAbsent, hnull, if_false]
    simp [applyOperator, definition, happly, hnull]

/-- `essential` that is false, on an absent parameter. -/
theorem applyStated_optional (h : ops.get? essential.text = some (.bool false)) :
    applyStated path ops none essential = .ok none := by
  have happly : essential.apply none (.bool false) = .ok { value := none } :=
    configured_eq_ok.mpr ⟨rfl, rfl⟩
  rw [applyStated_some h]
  simp [applyOperator, definition, happly]

end Steps

/-- The operators that work on arrays. -/
def arrayOperators : List PolicyOperator := [add, subsetOf, supersetOf]

/-- The operators after `value`, in their order. -/
def laterOperators : List PolicyOperator := [add, default, oneOf, subsetOf, supersetOf, essential]

/-- An array passes the operators that go with it, if what they compare is comparable: nothing
in it is lost on the way. -/
theorem apply_array (hc : Combined U ops) {l : List Json}
    (hone : ops.get? oneOf.text = none)
    (hcomp : (∃ op ∈ arrayOperators, (ops.get? op.text).isSome) →
      ∀ x ∈ l, isComparableElement x = true)
    (hsub : ∀ m, ops.get? subsetOf.text = some m → isSubset l (asItems m) = true)
    (hsup : ∀ m, ops.get? supersetOf.text = some m → isSubset (asItems m) l = true)
    (path : String) :
    ∃ c', laterOperators.foldlM (applyStated path ops) (some (.arr l)) = .ok c' := by
  -- the invariant: an array with all of `l`, comparable where an operator asks for that
  have hrun := Pipeline.run_isOk (f := applyStated path ops)
    (fun s => ∃ k, s = some (.arr k) ∧ (∀ x ∈ l, x ∈ k) ∧
      ((∃ op ∈ arrayOperators, (ops.get? op.text).isSome) → ∀ x ∈ k, isComparableElement x = true))
    (l := laterOperators) ?_ ⟨l, rfl, fun _ h => h, hcomp⟩
  · obtain ⟨c', hok, -⟩ := hrun
    exact ⟨c', hok⟩
  rintro op hlater s ⟨k, rfl, hlk, hk⟩
  cases hm : ops.get? op.text with
  | none => exact ⟨_, applyStated_none hm _, k, rfl, hlk, hk⟩
  | some m =>
    obtain ⟨op', hname, hvalued⟩ := hc.known _ m hm
    obtain rfl := text_injective hname
    have harray : op' ∈ arrayOperators → ∀ x ∈ k, isComparableElement x = true :=
      fun hop => hk ⟨op', hop, by simp [hm]⟩
    cases op' with
    | add =>
      obtain ⟨j, rfl, hj⟩ := hvalued.array rfl
      refine ⟨_, applyStated_present hm hvalued.allowed
        (supports_arr rfl (fun _ => rfl) (harray (by decide))) rfl (by simp), _, rfl,
        fun x hx => mem_union_left (hlk x hx), fun h x hx => ?_⟩
      exact (mem_union hx).elim (hk h x) fun hxj => (hj x hxj).2
    | default =>
      exact ⟨_, applyStated_present hm hvalued.allowed rfl rfl (by simp), k, rfl, hlk, hk⟩
    | oneOf => simp [hone] at hm
    | subsetOf =>
      refine ⟨_, applyStated_present hm hvalued.allowed
        (supports_arr rfl (fun _ => rfl) (harray (by decide))) rfl (by simp), _, rfl,
        fun x hx => ?_, fun h x hx => hk h x (mem_inter.mp hx).1⟩
      exact mem_inter.mpr ⟨hlk x hx, subset_iff.mp (hsub m hm) x hx⟩
    | supersetOf =>
      have hmem : isSubset (asItems m) k = true := by
        refine subset_iff.mpr fun x hx => ?_
        obtain ⟨y, hy, hxy⟩ := subset_iff.mp (hsup m hm) x hx
        exact ⟨y, hlk y hy, hxy⟩
      have happly : supersetOf.applyPresent (.arr k) m = .ok { value := some (.arr k) } := by
        simp only [applyPresent, asItems_arr, hmem, if_true]
      exact ⟨_, applyStated_present hm hvalued.allowed
        (supports_arr rfl (fun _ => rfl) (harray (by decide))) happly (by simp), k, rfl, hlk, hk⟩
    | essential =>
      exact ⟨_, applyStated_present hm hvalued.allowed (by simp [supports, isEssentialMetadataValue])
        rfl (by simp), k, rfl, hlk, hk⟩
    | value => exact absurd hlater (by decide)

/-- A value that is no array passes the operators that work on it. -/
theorem apply_single (hc : Combined U ops) {w : Json} (hnull : w ≠ .null)
    (hnone : ∀ op ∈ arrayOperators, ops.get? op.text = none)
    (hdefault : (ops.get? default.text).isSome → isValueOrDefaultMetadataValue w = true)
    (hone : ∀ m, ops.get? oneOf.text = some m →
      isOneOfMetadataValue w = true ∧ containsElement (asItems m) w = true) (path : String) :
    ∃ c', laterOperators.foldlM (applyStated path ops) (some w) = .ok c' := by
  have hrun := Pipeline.run_isOk (f := applyStated path ops) (fun s => s = some w)
    (l := laterOperators) ?_ rfl
  · obtain ⟨c', hok, -⟩ := hrun
    exact ⟨c', hok⟩
  rintro op hlater s rfl
  cases hm : ops.get? op.text with
  | none => exact ⟨_, applyStated_none hm _, rfl⟩
  | some m =>
    obtain ⟨op', hname, hvalued⟩ := hc.known _ m hm
    obtain rfl := text_injective hname
    have hpresent : (ops.get? op'.text).isSome := by simp [hm]
    have harray : op' ∉ arrayOperators := fun hop => by simp [hnone op' hop] at hm
    cases op' with
    | value => exact absurd hlater (by decide)
    | default =>
      exact ⟨_, applyStated_present hm hvalued.allowed (hdefault hpresent) rfl hnull, rfl⟩
    | oneOf =>
      obtain ⟨hsupports, hlisted⟩ := hone m hm
      have happly : oneOf.applyPresent w m = .ok { value := some w } := by
        simp only [applyPresent, hlisted, if_true]
      exact ⟨_, applyStated_present hm hvalued.allowed hsupports happly hnull, rfl⟩
    | essential =>
      have hsupports : essential.supports w = true := by
        simpa [supports, isEssentialMetadataValue] using hnull
      exact ⟨_, applyStated_present hm hvalued.allowed hsupports rfl hnull, rfl⟩
    | _ => exact absurd (by decide) harray

/-! ## When some value passes -/

/-- A string or a number. -/
def isStringOrNumber : Json → Bool
  | .str _ => true
  | .num _ => true
  | _ => false

/-- The types of merged operators agree: an array that is fixed can be compared where that is
asked for, and a parameter that has a default may be a string or a number. -/
structure OperatorsAgree (ops : ParameterPolicy) : Prop where
  fixed : ∀ l, ops.get? value.text = some (.arr l) →
    (∃ op ∈ arrayOperators, (ops.get? op.text).isSome) → ∀ x ∈ l, isComparableElement x = true
  listed : (ops.get? default.text).isSome → ∀ m, ops.get? oneOf.text = some m →
    ∃ x ∈ asItems m, isStringOrNumber x = true

/-- A listed scalar is one of the list. -/
theorem mem_of_containsElement {l : List Json} {w : Json} (hw : isContainer w = false)
    (h : containsElement l w = true) : w ∈ l := by
  obtain ⟨y, hy, hyw⟩ := contains_iff.mp h
  have hcontainer : isContainer y = false := by
    cases hcy : isContainer y with
    | false => rfl
    | true =>
      cases y <;> simp_all [isContainer, deepEqual, Json.isArray, Json.isObject]
  obtain rfl := (deepEqual_of_scalar hcontainer w).mp hyw
  exact hy

/-- What `one_of` and `default` both work on is a string or a number. -/
theorem isStringOrNumber_of_both {w : Json} (h : isValueOrDefaultMetadataValue w = true)
    (h' : isComparableElement w = true) : isStringOrNumber w = true ∧ isContainer w = false := by
  cases w <;>
    simp_all [isValueOrDefaultMetadataValue, isScalar, isComparableElement, isStringOrNumber,
      isContainer, Json.isArray, Json.isObject]

/-- `value` and `one_of` together: the value is one of those listed. -/
theorem value_listed {m k : Json} (hm : value.Valued U m) (hk : oneOf.Valued U k)
    (h : value.combinesWith oneOf m k = true) :
    m ∈ asItems k ∧ isStringOrNumber m = true ∧ isContainer m = false := by
  have hcheck : (!m.isArray && containsElement (asItems k) m) = true := h
  simp only [Bool.and_eq_true, Bool.not_eq_true'] at hcheck
  obtain ⟨j, rfl, hj⟩ := hk.array rfl
  have hscalar : isContainer m = false := by
    cases m with
    | obj l => exact absurd hm.allowed (by simp [allowsValue, isValueOrDefaultMetadataValue, isScalar,
        Json.isArray])
    | arr l => exact absurd hcheck.1 (by simp [Json.isArray])
    | _ => rfl
  have hmem := mem_of_containsElement hscalar hcheck.2
  refine ⟨hmem, ?_, hscalar⟩
  have hcomp := (hj m hmem).2
  cases m <;> simp_all [isStringOrNumber, isComparableElement, isContainer, Json.isObject]

/-- Without a fixed value the later operators decide. -/
theorem all_of_later (hm : ops.get? value.text = none) {path : String} {c c' : Option Json}
    (h : laterOperators.foldlM (applyStated path ops) c = .ok c') :
    PolicyOperator.all.foldlM (applyStated path ops) c = .ok c' := by
  change (value :: laterOperators).foldlM (applyStated path ops) c = .ok c'
  rw [List.foldlM_cons]
  exact bind_eq_ok.mpr ⟨c, applyStated_none hm c, h⟩

/-- An array that is fixed reaches the first array operator as it is, which then compares its
elements. -/
theorem fixed_of_later {l : List Json} {path : String} {c' : Option Json}
    (h : laterOperators.foldlM (applyStated path ops) (some (.arr l)) = .ok c') :
    (∃ op ∈ arrayOperators, (ops.get? op.text).isSome) →
      ∀ x ∈ l, isComparableElement x = true := by
  -- one step: the array is still there, or has been compared
  have hstep : ∀ op ∈ laterOperators, ∀ s s', (s = some (.arr l) ∨
      ∀ x ∈ l, isComparableElement x = true) → applyStated path ops s op = .ok s' →
      (s' = some (.arr l) ∨ ∀ x ∈ l, isComparableElement x = true) ∧
        (op ∈ arrayOperators → (ops.get? op.text).isSome →
          ∀ x ∈ l, isComparableElement x = true) := by
    intro op hlater s s' hs happly
    rcases hs with rfl | hcomp
    · cases hm : ops.get? op.text with
      | none =>
        rw [applyStated_none hm] at happly
        exact ⟨.inl (Except.ok.inj happly).symm, by simp⟩
      | some m =>
        rw [applyStated_some hm] at happly
        have heffect := applyOperator_effect happly
        have harray : ∀ k, some (Json.arr l) = some (.arr k) →
            (∀ x ∈ k, isComparableElement x = true) → ∀ x ∈ l, isComparableElement x = true := by
          intro k hk hcomp
          obtain rfl : l = k := by simpa using hk
          exact hcomp
        cases op with
        | value => exact absurd hlater (by decide)
        | add =>
          rcases heffect with ⟨hnone, -⟩ | ⟨k, hk, hcomp, -⟩
          · simp at hnone
          · exact ⟨.inr (harray k hk hcomp), fun _ _ => harray k hk hcomp⟩
        | subsetOf =>
          rcases heffect with ⟨hnone, -⟩ | ⟨k, hk, hcomp, -⟩
          · simp at hnone
          · exact ⟨.inr (harray k hk hcomp), fun _ _ => harray k hk hcomp⟩
        | supersetOf =>
          obtain ⟨k, hk, hcomp, -⟩ := heffect.2 _ rfl
          have hall := harray k (congrArg some hk) hcomp
          exact ⟨.inr hall, fun _ _ => hall⟩
        | default =>
          rcases heffect with ⟨hnone, -⟩ | ⟨-, rfl⟩
          · simp at hnone
          · exact ⟨.inl rfl, fun hop => absurd hop (by decide)⟩
        | oneOf => exact ⟨.inl heffect.1, fun hop => absurd hop (by decide)⟩
        | essential => exact ⟨.inl heffect.1, fun hop => absurd hop (by decide)⟩
    · exact ⟨.inr hcomp, fun _ _ => hcomp⟩
  have hall := Pipeline.run_establishes (f := applyStated path ops)
    (fun op _ => op ∈ arrayOperators → (ops.get? op.text).isSome →
      ∀ x ∈ l, isComparableElement x = true) (R := fun _ _ => True) (l := laterOperators)
    (List.pairwise_of_forall fun _ _ => trivial)
    (fun op hop s s' hs happly => (hstep op hop s s' hs happly).1)
    (fun op hop s s' hs happly => (hstep op hop s s' hs happly).2)
    (fun _ _ _ _ _ _ _ _ hpost _ => hpost) (.inl rfl) h
  rintro ⟨op, hop, hsome⟩
  have hlater : op ∈ laterOperators := by
    simp only [arrayOperators, List.mem_cons, List.not_mem_nil, or_false] at hop
    rcases hop with rfl | rfl | rfl <;> decide
  exact hall op hlater hop hsome

/-- The value that `default` leaves is of the types it works on. -/
theorem default_leaves {d : Json} (hd : ops.get? default.text = some d) {path : String}
    {c c' : Option Json} (h : applyStated path ops c default = .ok c') :
    ∃ w, c' = some w ∧ isValueOrDefaultMetadataValue w = true := by
  rw [applyStated_some hd] at h
  obtain ⟨hallowed, result, rfl, hresult⟩ := applyOperator_eq_ok h
  cases c with
  | none =>
    obtain rfl := Except.ok.inj hresult
    exact ⟨d, rfl, hallowed⟩
  | some v =>
    obtain ⟨hsupports, happly⟩ := hresult
    obtain rfl := Except.ok.inj happly
    exact ⟨v, rfl, hsupports⟩

section Passes

variable (hc : Combined U ops)
include hc

/-- Nothing is left to do for a parameter that is fixed to be absent. -/
theorem apply_removed (hm : ops.get? value.text = some .null) (path : String) :
    ∃ c', laterOperators.foldlM (applyStated path ops) none = .ok c' := by
  have hrun := Pipeline.run_isOk (f := applyStated path ops) (fun s => s = none)
    (l := laterOperators) ?_ rfl
  · obtain ⟨c', hok, -⟩ := hrun
    exact ⟨c', hok⟩
  rintro op hlater s rfl
  cases hk : ops.get? op.text with
  | none => exact ⟨_, applyStated_none hk _, rfl⟩
  | some k =>
    obtain ⟨op', hname, hvalued⟩ := hc.known _ k hk
    obtain rfl := text_injective hname
    obtain ⟨value', hname', hvalued'⟩ := hc.known _ _ hm
    obtain rfl := text_injective hname'
    have hne : value ≠ op' := by
      rintro rfl
      exact absurd hlater (by decide)
    have hcomb := hc.combines value op' hne _ k hm hk
    cases op' with
    | essential =>
      obtain ⟨b, rfl⟩ := hvalued.bool
      cases b with
      | false => exact ⟨_, applyStated_optional hk, rfl⟩
      | true => exact absurd hcomb (by decide)
    | oneOf =>
      obtain ⟨-, htext, -⟩ := value_listed hvalued' hvalued hcomb
      simp [isStringOrNumber] at htext
    | value => exact absurd rfl hne
    | _ => simp [combinesWith, neverAllowed, checkValueCombination, Json.isArray] at hcomb

/-- A merged parameter with a fixed value. -/
theorem fixed_passes {m : Json} (hm : ops.get? value.text = some m) (h : OperatorsAgree ops)
    (path : String) : ∃ c', PolicyOperator.all.foldlM (applyStated path ops) none = .ok c' := by
  obtain ⟨op', hname, hvalued⟩ := hc.known _ m hm
  obtain rfl : op' = value := text_injective hname
  -- what the operators beside `value` were checked for
  have hcheck : ∀ op : PolicyOperator, value ≠ op → ∀ k, ops.get? op.text = some k →
      checkValueCombination op m k = true := by
    intro op hne k hk
    have hcomb := hc.combines value op hne m k hm hk
    cases op <;> first | exact absurd rfl hne | exact hcomb
  have hlater : ∃ c', laterOperators.foldlM (applyStated path ops)
      (if m = .null then none else some m) = .ok c' := by
    cases hkind : m.isArray with
    | true =>
      obtain ⟨l, rfl⟩ : ∃ l, m = .arr l := by
        cases m <;> first | exact ⟨_, rfl⟩ | simp [Json.isArray] at hkind
      simp only [reduceCtorEq, if_false]
      refine apply_array hc ?_ (h.fixed l hm) (fun k hk => ?_) (fun k hk => ?_) path
      · cases hk : ops.get? oneOf.text with
        | none => rfl
        | some k => exact absurd (hcheck oneOf (by decide) k hk) (by simp [checkValueCombination, hkind])
      · have hcheck' := hcheck subsetOf (by decide) k hk
        simp only [checkValueCombination, Bool.and_eq_true] at hcheck'
        exact hcheck'.2
      · have hcheck' := hcheck supersetOf (by decide) k hk
        simp only [checkValueCombination, Bool.and_eq_true] at hcheck'
        exact hcheck'.2
    | false =>
      by_cases hnull : m = .null
      · subst hnull
        exact apply_removed hc hm path
      rw [if_neg hnull]
      refine apply_single hc hnull (fun op hop => ?_) (fun _ => ?_) (fun k hk => ?_) path
      · cases hk : ops.get? op.text with
        | none => rfl
        | some k =>
          have hne : value ≠ op := by
            rintro rfl
            exact absurd hop (by decide)
          have hcheck' := hcheck op hne k hk
          simp only [arrayOperators, List.mem_cons, List.not_mem_nil, or_false] at hop
          rcases hop with rfl | rfl | rfl <;> simp [checkValueCombination, hkind] at hcheck'
      · have hallowed := hvalued.allowed
        simpa [allowsValue, hnull] using hallowed
      · obtain ⟨one, hone, hlisted⟩ := hc.known _ k hk
        obtain rfl : one = oneOf := text_injective hone
        have hcheck' := hcheck oneOf (by decide) k hk
        obtain ⟨hmem, -, -⟩ := value_listed hvalued hlisted hcheck'
        obtain ⟨j, rfl, hj⟩ := hlisted.array rfl
        simp only [checkValueCombination, Bool.and_eq_true] at hcheck'
        exact ⟨(hj m hmem).2, hcheck'.2⟩
  obtain ⟨c', hc'⟩ := hlater
  refine ⟨c', ?_⟩
  change (value :: laterOperators).foldlM (applyStated path ops) none = .ok c'
  rw [List.foldlM_cons]
  exact bind_eq_ok.mpr ⟨_, applyStated_value hm hvalued.allowed, hc'⟩

/-- Operators that may never stand beside `one_of`. -/
theorem get?_none_of_oneOf {k : Json} (hk : ops.get? oneOf.text = some k) :
    ∀ op ∈ arrayOperators, ops.get? op.text = none := by
  intro op hop
  cases hm : ops.get? op.text with
  | none => rfl
  | some m =>
    simp only [arrayOperators, List.mem_cons, List.not_mem_nil, or_false] at hop
    rcases hop with rfl | rfl | rfl
    · simpa [combinesWith, neverAllowed] using hc.combines add oneOf (by decide) m k hm hk
    · simpa [combinesWith, neverAllowed] using hc.combines subsetOf oneOf (by decide) m k hm hk
    · simpa [combinesWith, neverAllowed] using hc.combines supersetOf oneOf (by decide) m k hm hk

/-- A merged parameter that must be one of a list. -/
theorem listed_passes (hrefl : ∀ x ∈ U, deepEqual x x = true)
    (hvalue : ops.get? value.text = none) {k : Json} (hk : ops.get? oneOf.text = some k)
    (hne : asItems k ≠ []) (h : OperatorsAgree ops) (path : String) :
    ∃ c c', PolicyOperator.all.foldlM (applyStated path ops) c = .ok c' := by
  obtain ⟨op', hname, hvalued⟩ := hc.known _ k hk
  obtain rfl : op' = oneOf := text_injective hname
  obtain ⟨j, rfl, hj⟩ := hvalued.array rfl
  -- a member of the list; a string or a number if there is a default
  have hw : ∃ w ∈ j, (ops.get? default.text).isSome → isStringOrNumber w = true := by
    by_cases hdefault : (ops.get? default.text).isSome
    · obtain ⟨w, hw, htext⟩ := h.listed hdefault _ hk
      exact ⟨w, hw, fun _ => htext⟩
    · obtain ⟨w, hw⟩ := List.exists_mem_of_ne_nil j hne
      exact ⟨w, hw, fun hd => absurd hd hdefault⟩
  obtain ⟨w, hw, htext⟩ := hw
  obtain ⟨hwU, hcomp⟩ := hj w hw
  have hnull : w ≠ .null := by
    rintro rfl
    simp [isComparableElement] at hcomp
  obtain ⟨c', hc'⟩ := apply_single hc hnull (get?_none_of_oneOf hc hk)
    (fun hd => by
      have := htext hd
      cases w <;> simp_all [isStringOrNumber, isValueOrDefaultMetadataValue, isScalar])
    (fun m hm => by
      obtain rfl : Json.arr j = m := Option.some.inj (hk.symm.trans hm)
      exact ⟨hcomp, contains_iff.mpr ⟨w, hw, hrefl w hwU⟩⟩) path
  exact ⟨some w, c', all_of_later hvalue hc'⟩

/-- Any other merged parameter: the required elements, or nothing, as an array. -/
theorem array_passes (hrefl : ∀ x ∈ U, deepEqual x x = true)
    (hvalue : ops.get? value.text = none) (hone : ops.get? oneOf.text = none) (path : String) :
    ∃ c c', PolicyOperator.all.foldlM (applyStated path ops) c = .ok c' := by
  have hlater : ∃ l c', laterOperators.foldlM (applyStated path ops) (some (.arr l)) = .ok c' := by
    cases hsup : ops.get? supersetOf.text with
    | none =>
      refine ⟨[], apply_array hc hone (by simp) (fun m _ => ?_) (fun m hm => ?_) path⟩
      · simp [isSubset, UpTo.subset]
      · simp [hsup] at hm
    | some m =>
      obtain ⟨op', hname, hvalued⟩ := hc.known _ m hsup
      obtain rfl : op' = supersetOf := text_injective hname
      obtain ⟨l, rfl, hl⟩ := hvalued.array rfl
      refine ⟨l, apply_array hc hone (fun _ x hx => (hl x hx).2) (fun k hk => ?_) (fun k hk => ?_)
        path⟩
      · have hcomb := hc.combines supersetOf subsetOf (by decide) _ k hsup hk
        have hcheck : (isComparableArray (.arr l) && isComparableArray k &&
            isSubset l (asItems k)) = true := hcomb
        simp only [Bool.and_eq_true] at hcheck
        exact hcheck.2
      · obtain rfl : Json.arr l = k := Option.some.inj (hsup.symm.trans hk)
        exact subset_iff.mpr (within_self fun x hx => hrefl x (hl x hx).1)
  obtain ⟨l, c', hc'⟩ := hlater
  exact ⟨some (.arr l), c', all_of_later hvalue hc'⟩

/-- Operators that some value passes have types that agree. -/
theorem agree_of_passes {path : String} {c c' : Option Json}
    (h : PolicyOperator.all.foldlM (applyStated path ops) c = .ok c') : OperatorsAgree ops := by
  obtain ⟨c₁, hfirst, hlater⟩ := bind_eq_ok.mp
    (show (applyStated path ops c value >>= fun s =>
      laterOperators.foldlM (applyStated path ops) s) = .ok c' from h)
  refine ⟨fun l hl => ?_, fun hdefault k hk => ?_⟩
  · rw [applyStated_some hl] at hfirst
    obtain rfl : c₁ = some (.arr l) := applyOperator_effect hfirst
    exact fixed_of_later hlater
  · obtain ⟨one, hone, hlisted⟩ := hc.known _ k hk
    obtain rfl : one = oneOf := text_injective hone
    cases hm : ops.get? value.text with
    | some m =>
      obtain ⟨op', hname, hvalued⟩ := hc.known _ m hm
      obtain rfl : op' = value := text_injective hname
      obtain ⟨hmem, htext, -⟩ :=
        value_listed hvalued hlisted (hc.combines value oneOf (by decide) m k hm hk)
      exact ⟨m, hmem, htext⟩
    | none =>
      obtain ⟨d, hd⟩ := Option.isSome_iff_exists.mp hdefault
      -- `add` is not there: what `default` leaves is what `one_of` looks at
      have hadd := get?_none_of_oneOf hc hk add (by decide)
      obtain ⟨c₂, hsecond, hrest⟩ := bind_eq_ok.mp
        (show (applyStated path ops c₁ add >>= fun s =>
          [default, oneOf, subsetOf, supersetOf, essential].foldlM (applyStated path ops) s) =
            .ok c' from hlater)
      obtain ⟨c₃, hthird, hrest⟩ := bind_eq_ok.mp
        (show (applyStated path ops c₂ default >>= fun s =>
          [oneOf, subsetOf, supersetOf, essential].foldlM (applyStated path ops) s) = .ok c'
            from hrest)
      obtain ⟨c₄, hfourth, -⟩ := bind_eq_ok.mp
        (show (applyStated path ops c₃ oneOf >>= fun s =>
          [subsetOf, supersetOf, essential].foldlM (applyStated path ops) s) = .ok c' from hrest)
      obtain ⟨w, rfl, hw⟩ := default_leaves hd hthird
      rw [applyStated_some hk] at hfourth
      obtain ⟨hmem, hcomp⟩ := (applyOperator_effect hfourth).2 w rfl
      obtain ⟨htext, hscalar⟩ := isStringOrNumber_of_both hw hcomp
      exact ⟨w, mem_of_containsElement hscalar hmem, htext⟩

/-- A parameter other than `scope` whose name is its own goes through the operators as it is. -/
theorem applyParameter_eq {numberText : Rat → String} {entityType paramName : String}
    (hname : inherited paramName = false) (hscope : paramName ≠ "scope") (c : Option Json) :
    applyParameter numberText operators entityType paramName ops c =
      PolicyOperator.all.foldlM (applyStated s!"{entityType}.{paramName}" ops) c := by
  have hread : readsBuiltin operators ops = false := by
    rw [readsBuiltin, List.any_eq_false]
    intro k hk
    obtain ⟨m, hm⟩ := (ops.mem_keys_iff k).mp hk
    obtain ⟨op, rfl, -⟩ := hc.known k m hm
    simp [operators_get?]
  rw [← applyOperators_eq hc]
  simp only [applyParameter, hread, Bool.false_eq_true, if_false, hscope,
    readOr_of_not_inherited _ hname]
  cases c with
  | none => rfl
  | some v => cases v <;> rfl

/-- Some value, or the absence, of a parameter passes its merged operators exactly when their
types agree. -/
theorem applyParameter_isOk_iff (hrefl : ∀ x ∈ U, deepEqual x x = true)
    {numberText : Rat → String} {entityType paramName : String}
    (hname : inherited paramName = false) (hscope : paramName ≠ "scope")
    (hone : ∀ m, ops.get? oneOf.text = some m → asItems m ≠ []) :
    (∃ c c', applyParameter numberText operators entityType paramName ops c = .ok c') ↔
      OperatorsAgree ops := by
  simp only [applyParameter_eq hc hname hscope]
  constructor
  · rintro ⟨c, c', h⟩
    exact agree_of_passes hc h
  · intro h
    cases hvalue : ops.get? value.text with
    | some m =>
      obtain ⟨c', hc'⟩ := fixed_passes hc hvalue h s!"{entityType}.{paramName}"
      exact ⟨none, c', hc'⟩
    | none =>
      cases hk : ops.get? oneOf.text with
      | some k => exact listed_passes hc hrefl hvalue hk (hone k hk) h _
      | none => exact array_passes hc hrefl hvalue hk _

end Passes

end OidFed
