import OidFed.Policy.Satisfiable

/-!
# What the operators leave of a parameter

* `produced`: what the operators of a merged parameter leave, in one expression. A fixed value, the
  parameter or, without one, the value of `add` or `default` enters; an array is extended by `add`
  and limited by `subset_of`.
* `applyOperators_produced`: where the operators go through, that is what they leave.
* `applyOperators_again_iff`: when they leave what they left before.

Of `deepEqual` only reflexivity enters.
-/

namespace OidFed

open Js UpTo PolicyOperator

variable {U : Set Json} {ops : ParameterPolicy}

/-- `add` on an array. -/
def extend (ops : ParameterPolicy) (l : List Json) : List Json :=
  match ops.get? add.text with
  | some m => arrayUnion l (asItems m)
  | none => l

/-- `subset_of` on an array. -/
def limit (ops : ParameterPolicy) (l : List Json) : List Json :=
  match ops.get? subsetOf.text with
  | some m => arrayIntersection l (asItems m)
  | none => l

def onItems (f : List Json → List Json) : Json → Json
  | .arr l => .arr (f l)
  | v => v

/-- The value that is worked on: a fixed one, the parameter, or what is put in its place. -/
def entering (ops : ParameterPolicy) (c : Option Json) : Option Json :=
  match ops.get? value.text with
  | some m => if m = .null then none else some m
  | none =>
    match c with
    | some v => some v
    | none =>
      match ops.get? add.text with
      | some m => some m
      | none => ops.get? default.text

theorem entering_fixed {m : Json} (h : ops.get? value.text = some m) (c : Option Json) :
    entering ops c = if m = .null then none else some m := by
  simp only [entering, h]

theorem entering_present (h : ops.get? value.text = none) (v : Json) :
    entering ops (some v) = some v := by
  simp only [entering, h]

theorem mem_of_mem_limit {l : List Json} {x : Json} (h : x ∈ limit ops l) : x ∈ l := by
  unfold limit at h
  split at h
  · exact (mem_inter.mp h).1
  · exact h

/-- What the operators leave. -/
def produced (ops : ParameterPolicy) (c : Option Json) : Option Json :=
  (entering ops c).map (onItems fun l => limit ops (extend ops l))

/-! ## The steps -/

section Steps

variable {path : String} {c c' r : Option Json}

theorem run_eq_ok : PolicyOperator.all.foldlM (applyStated path ops) c = .ok r ↔
    ∃ c₁ c₂ c₃ c₄ c₅ c₆, applyStated path ops c value = .ok c₁ ∧
      applyStated path ops c₁ add = .ok c₂ ∧ applyStated path ops c₂ default = .ok c₃ ∧
      applyStated path ops c₃ oneOf = .ok c₄ ∧ applyStated path ops c₄ subsetOf = .ok c₅ ∧
      applyStated path ops c₅ supersetOf = .ok c₆ ∧ applyStated path ops c₆ essential = .ok r := by
  simp only [PolicyOperator.all, List.foldlM_cons, List.foldlM_nil, bind_eq_ok, pure, Except.pure,
    Except.ok.injEq]
  constructor
  · rintro ⟨c₁, h₁, c₂, h₂, c₃, h₃, c₄, h₄, c₅, h₅, c₆, h₆, _, h₇, rfl⟩
    exact ⟨c₁, c₂, c₃, c₄, c₅, c₆, h₁, h₂, h₃, h₄, h₅, h₆, h₇⟩
  · rintro ⟨c₁, c₂, c₃, c₄, c₅, c₆, h₁, h₂, h₃, h₄, h₅, h₆, h₇⟩
    exact ⟨c₁, h₁, c₂, h₂, c₃, h₃, c₄, h₄, c₅, h₅, c₆, h₆, r, h₇, rfl⟩

theorem applyStated_cases {op : PolicyOperator} (h : applyStated path ops c op = .ok c') :
    ops.get? op.text = none ∧ c' = c ∨ ∃ m, ops.get? op.text = some m ∧ op.Effect m c c' := by
  cases hm : ops.get? op.text with
  | none =>
    rw [applyStated_none hm] at h
    exact .inl ⟨rfl, (Except.ok.inj h).symm⟩
  | some m =>
    rw [applyStated_some hm] at h
    exact .inr ⟨m, rfl, applyOperator_effect h⟩

/-- The operators that only check. -/
theorem check_leaves {op : PolicyOperator} (hop : op.action = .check)
    (h : applyStated path ops c op = .ok c') : c' = c := by
  rcases applyStated_cases h with ⟨-, rfl⟩ | ⟨m, -, heffect⟩
  · rfl
  · cases op with
    | oneOf => exact heffect.1
    | supersetOf => exact heffect.1
    | essential => exact heffect.1
    | _ => cases hop

theorem add_leaves {v : Json} (h : applyStated path ops (some v) add = .ok c') :
    c' = some (onItems (extend ops) v) := by
  rcases applyStated_cases h with ⟨hnone, rfl⟩ | ⟨m, hm, heffect⟩
  · cases v <;> simp only [onItems, extend, hnone]
  · rcases heffect with ⟨⟨⟩, -⟩ | ⟨l, hl, -, rfl⟩
    obtain rfl := Option.some.inj hl
    simp only [onItems, extend, hm]

theorem add_absent (h : applyStated path ops none add = .ok c') : c' = ops.get? add.text := by
  rcases applyStated_cases h with ⟨hnone, rfl⟩ | ⟨m, hm, heffect⟩
  · exact hnone.symm
  · rcases heffect with ⟨-, rfl⟩ | ⟨l, ⟨⟩, -⟩
    exact hm.symm

theorem default_present {v : Json} (h : applyStated path ops (some v) default = .ok c') :
    c' = some v := by
  rcases applyStated_cases h with ⟨-, rfl⟩ | ⟨m, -, heffect⟩
  · rfl
  · rcases heffect with ⟨⟨⟩, -⟩ | ⟨-, rfl⟩
    rfl

theorem default_absent (h : applyStated path ops none default = .ok c') :
    c' = ops.get? default.text := by
  rcases applyStated_cases h with ⟨hnone, rfl⟩ | ⟨m, hm, heffect⟩
  · exact hnone.symm
  · rcases heffect with ⟨-, rfl⟩ | ⟨⟨⟩, -⟩
    exact hm.symm

theorem subsetOf_leaves (h : applyStated path ops c subsetOf = .ok c') :
    c' = c.map (onItems (limit ops)) := by
  rcases applyStated_cases h with ⟨hnone, rfl⟩ | ⟨m, hm, heffect⟩
  · cases c' with
    | none => rfl
    | some v => cases v <;> simp only [Option.map_some, onItems, limit, hnone]
  · rcases heffect with ⟨rfl, rfl⟩ | ⟨l, rfl, -, rfl⟩
    · rfl
    · simp only [Option.map_some, onItems, limit, hm]

/-- What is in the parameter after `value`. -/
theorem value_leaves (h : applyStated path ops c value = .ok c') :
    c' = match ops.get? value.text with
      | some m => if m = .null then none else some m
      | none => c := by
  rcases applyStated_cases h with ⟨hnone, rfl⟩ | ⟨m, hm, heffect⟩
  · rw [hnone]
  · rw [hm]
    exact heffect

end Steps

/-! ## All of them -/

section All

variable (hc : Combined U ops)
include hc

/-- Beside a parameter that is fixed to be absent nothing can be put in its place. -/
theorem removed_alone (hm : ops.get? value.text = some .null) {op : PolicyOperator}
    (hop : op = add ∨ op = default) : ops.get? op.text = none := by
  cases hk : ops.get? op.text with
  | none => rfl
  | some k =>
    rcases hop with rfl | rfl
    · have hcomb := hc.combines value add (by decide) _ k hm hk
      simp [combinesWith, neverAllowed, checkValueCombination, Json.isArray] at hcomb
    · have hcomb := hc.combines value default (by decide) _ k hm hk
      simp [combinesWith, neverAllowed, checkValueCombination] at hcomb

theorem items_of_add {m : Json} (hm : ops.get? add.text = some m) :
    ∃ a, m = .arr a ∧ ∀ x ∈ a, x ∈ U ∧ isComparableElement x = true := by
  obtain ⟨op, hname, hvalued⟩ := hc.known _ m hm
  obtain rfl : op = add := text_injective hname
  exact hvalued.array rfl

/-- What `add` says lies within what `subset_of` says. -/
theorem add_within {a : List Json} (hadd : ops.get? add.text = some (.arr a)) {m : Json}
    (hsub : ops.get? subsetOf.text = some m) : Within deepEqual a (asItems m) := by
  have hcomb := hc.combines add subsetOf (by decide) _ m hadd hsub
  have hcheck : (isComparableArray (.arr a) && isComparableArray m &&
      isSubset a (asItems m)) = true := hcomb
  simp only [Bool.and_eq_true] at hcheck
  exact subset_iff.mp hcheck.2

variable (hrefl : ∀ x ∈ U, deepEqual x x = true)
include hrefl

/-- `add` has nothing to add to its own value. -/
theorem extend_self {a : List Json} (hadd : ops.get? add.text = some (.arr a)) :
    extend ops a = a := by
  obtain ⟨a', ha', hmem⟩ := items_of_add hc hadd
  obtain rfl := Json.arr.inj ha'
  simp only [extend, hadd, asItems_arr]
  exact union_eq_left (covers_self fun x hx => hrefl x (hmem x hx).1)

/-- What the operators leave, where they go through. -/
theorem run_produced {path : String} {c r : Option Json}
    (h : PolicyOperator.all.foldlM (applyStated path ops) c = .ok r) : r = produced ops c := by
  obtain ⟨c₁, c₂, c₃, c₄, c₅, c₆, hvalue, hadd, hdefault, hone, hsub, hsup, hess⟩ := run_eq_ok.mp h
  obtain rfl := check_leaves rfl hess
  obtain rfl := check_leaves rfl hsup
  obtain rfl := check_leaves rfl hone
  obtain rfl := subsetOf_leaves hsub
  have hfirst := value_leaves hvalue
  -- a value that has entered is extended, and no default is put in its place
  have hpresent : ∀ v, c₁ = some v →
      c₄.map (onItems (limit ops)) = some (onItems (fun l => limit ops (extend ops l)) v) := by
    rintro v rfl
    obtain rfl := add_leaves hadd
    obtain rfl := default_present hdefault
    cases v <;> rfl
  cases hm : ops.get? value.text with
  | some m =>
    rw [hm] at hfirst
    by_cases hnull : m = .null
    · subst hnull
      obtain rfl : c₁ = none := hfirst
      obtain rfl := add_absent hadd
      rw [removed_alone hc hm (.inl rfl)] at hdefault
      obtain rfl := default_absent hdefault
      simp [produced, entering, hm, removed_alone hc hm (.inr rfl)]
    · simp only [hnull, if_false] at hfirst
      rw [hpresent m hfirst]
      simp [produced, entering, hm, hnull]
  | none =>
    rw [hm] at hfirst
    obtain rfl : c₁ = c := hfirst
    cases c₁ with
    | some v =>
      rw [hpresent v rfl]
      simp [produced, entering, hm]
    | none =>
      obtain rfl := add_absent hadd
      cases ha : ops.get? add.text with
      | some m =>
        obtain ⟨a, rfl, -⟩ := items_of_add hc ha
        rw [ha] at hdefault
        obtain rfl := default_present hdefault
        simp only [produced, entering, hm, ha, Option.map_some, onItems, extend_self hc hrefl ha]
      | none =>
        rw [ha] at hdefault
        obtain rfl := default_absent hdefault
        have hextend : extend ops = id := by
          funext l
          simp only [extend, ha, id]
        simp only [produced, entering, hm, ha, hextend, id]

theorem applyOperators_produced {path : String} {c r : Option Json}
    (h : applyOperators path (sortedOps operators ops) c = .ok r) : r = produced ops c :=
  run_produced hc hrefl (applyOperators_eq hc path c ▸ h)

end All

/-! ## Once more -/

/-- Each element of `add` is equal to an element of the published array, or of `add`, that
`subset_of` lets stand. -/
def AddStays (ops : ParameterPolicy) (c : Option Json) : Prop :=
  ∀ l a s, ops.get? value.text = none → c = some (.arr l) → ops.get? add.text = some a →
    ops.get? subsetOf.text = some s → ∀ x ∈ asItems a, ∃ y ∈ arrayUnion l (asItems a),
      deepEqual y x = true ∧ ∃ z ∈ asItems s, deepEqual y z = true

theorem isValue_onItems (f : List Json → List Json) {v : Json}
    (h : isValueOrDefaultMetadataValue v = true) :
    isValueOrDefaultMetadataValue (onItems f v) = true := by
  cases v <;> exact h

section Again

variable {path : String} {c r : Option Json}

/-- `value` on a parameter that it works on. -/
theorem applyStated_fixed {m : Json} (h : ops.get? value.text = some m)
    (hm : value.allowsValue m = true)
    (hc : ∀ v, c = some v → isValueOrDefaultMetadataValue v = true) :
    applyStated path ops c value = .ok (if m = .null then none else some m) := by
  cases c with
  | none => exact applyStated_value h hm
  | some v =>
    by_cases hnull : m = .null
    · subst hnull
      have happly : value.apply (some v) .null = .ok { value := some .null, removed := true } := by
        refine configured_eq_ok.mpr ⟨rfl, ?_⟩
        simp only [supports, hc v rfl, if_true]
        rfl
      rw [applyStated_some h]
      simp [applyOperator, definition, happly]
    · rw [if_neg hnull]
      refine applyStated_present h hm (hc v rfl) ?_ hnull
      simp only [applyPresent, hnull, if_false]

variable (hc : Combined U ops) (hrefl : ∀ x ∈ U, deepEqual x x = true)
include hc hrefl

/-- A fixed value takes the same way again. -/
theorem fixed_again {m : Json} (hm : ops.get? value.text = some m)
    (h : PolicyOperator.all.foldlM (applyStated path ops) c = .ok r) :
    PolicyOperator.all.foldlM (applyStated path ops) r = .ok r := by
  obtain ⟨op, hname, hvalued⟩ := hc.known _ m hm
  obtain rfl : op = value := text_injective hname
  have hr : ∀ v, r = some v → isValueOrDefaultMetadataValue v = true := by
    intro v hv
    rw [run_produced hc hrefl h, produced, entering_fixed hm] at hv
    by_cases hnull : m = .null
    · simp [hnull] at hv
    · simp only [hnull, if_false, Option.map_some, Option.some.injEq] at hv
      subst hv
      refine isValue_onItems _ ?_
      simpa [allowsValue, hnull] using hvalued.allowed
  obtain ⟨c₁, c₂, c₃, c₄, c₅, c₆, hvalue, hlater⟩ := run_eq_ok.mp h
  have hfirst := value_leaves hvalue
  rw [hm] at hfirst
  refine run_eq_ok.mpr ⟨c₁, c₂, c₃, c₄, c₅, c₆, ?_, hlater⟩
  rw [applyStated_fixed hm hvalued.allowed hr, hfirst]

/-- `add` finds its elements in what is left. -/
theorem add_again (hvalue : ops.get? value.text = none) (hstays : AddStays ops c)
    (h : PolicyOperator.all.foldlM (applyStated path ops) c = .ok r) :
    applyStated path ops r add = .ok r := by
  cases ha : ops.get? add.text with
  | none => exact applyStated_none ha r
  | some m =>
    obtain ⟨op, hname, hvalued⟩ := hc.known _ m ha
    obtain rfl : op = add := text_injective hname
    obtain ⟨a, rfl, hmem⟩ := hvalued.array rfl
    obtain ⟨c₁, c₂, -, -, -, -, hfirst, hadd, -⟩ := run_eq_ok.mp h
    obtain rfl := value_leaves hfirst
    rw [hvalue] at hadd
    -- the array that entered, and what is left of it
    have hleft : ∃ l, entering ops c = some (.arr l) ∧
        (∀ x ∈ l, isComparableElement x = true) ∧
        (l = a ∨ c = some (.arr l)) := by
      cases c with
      | none =>
        refine ⟨a, ?_, fun x hx => (hmem x hx).2, .inl rfl⟩
        simp only [entering, hvalue, ha]
      | some v =>
        rw [applyStated_some ha] at hadd
        rcases applyOperator_effect hadd with ⟨⟨⟩, -⟩ | ⟨l, hl, hcomp, -⟩
        obtain rfl := Option.some.inj hl
        exact ⟨l, entering_present hvalue _, hcomp, .inr rfl⟩
    obtain ⟨l, henter, hcomp, hfrom⟩ := hleft
    have hr : r = some (.arr (limit ops (arrayUnion l a))) := by
      rw [run_produced hc hrefl h, produced, henter]
      simp only [Option.map_some, onItems, extend, ha, asItems_arr]
    have hunion : ∀ x ∈ arrayUnion l a, isComparableElement x = true :=
      fun x hx => (mem_union hx).elim (hcomp x) fun hx => (hmem x hx).2
    have hcovers : Covers deepEqual (limit ops (arrayUnion l a)) a := by
      intro x hx
      cases hs : ops.get? subsetOf.text with
      | none =>
        simp only [limit, hs]
        exact covers_union_right (fun x hx => hrefl x (hmem x hx).1) x hx
      | some s =>
        simp only [limit, hs]
        rcases hfrom with rfl | rfl
        · exact ⟨x, mem_inter.mpr ⟨mem_union_left hx, add_within hc ha hs x hx⟩,
            hrefl x (hmem x hx).1⟩
        · obtain ⟨y, hy, hyx, hwithin⟩ := hstays l _ s hvalue rfl ha hs x hx
          exact ⟨y, mem_inter.mpr ⟨hy, hwithin⟩, hyx⟩
    rw [hr]
    refine applyStated_present ha hvalued.allowed
      (supports_arr rfl (fun _ => rfl) fun x hx => hunion x (mem_of_mem_limit hx)) ?_ (by simp)
    simp only [applyPresent, asItems_arr]
    rw [show arrayUnion (limit ops (arrayUnion l a)) a = _ from union_eq_left hcovers]

omit hrefl in
theorem default_again (h : PolicyOperator.all.foldlM (applyStated path ops) c = .ok r) :
    applyStated path ops r default = .ok r := by
  cases hd : ops.get? default.text with
  | none => exact applyStated_none hd r
  | some d =>
    obtain ⟨op, hname, hvalued⟩ := hc.known _ d hd
    obtain rfl : op = default := text_injective hname
    obtain ⟨c₁, c₂, c₃, c₄, c₅, c₆, -, -, hdefault, hone, hsub, hsup, hess⟩ := run_eq_ok.mp h
    obtain ⟨w, rfl, hw⟩ := default_leaves hd hdefault
    obtain rfl := check_leaves rfl hone
    obtain rfl := subsetOf_leaves hsub
    obtain rfl := check_leaves rfl hsup
    obtain rfl := check_leaves rfl hess
    have hkind := isValue_onItems (limit ops) hw
    refine applyStated_present hd hvalued.allowed hkind rfl ?_
    rintro hnull
    rw [hnull] at hkind
    cases hkind

omit hrefl in
theorem subsetOf_again (h : PolicyOperator.all.foldlM (applyStated path ops) c = .ok r) :
    applyStated path ops r subsetOf = .ok r := by
  cases hs : ops.get? subsetOf.text with
  | none => exact applyStated_none hs r
  | some s =>
    obtain ⟨op, hname, hvalued⟩ := hc.known _ s hs
    obtain rfl : op = subsetOf := text_injective hname
    obtain ⟨c₁, c₂, c₃, c₄, c₅, c₆, -, -, -, -, hsub, hsup, hess⟩ := run_eq_ok.mp h
    obtain rfl := check_leaves rfl hsup
    obtain rfl := check_leaves rfl hess
    have happly := hsub
    rw [applyStated_some hs] at happly
    rcases applyOperator_effect happly with ⟨rfl, rfl⟩ | ⟨l, rfl, hcomp, rfl⟩
    · exact hsub
    · refine applyStated_present hs hvalued.allowed
        (supports_arr rfl (fun _ => rfl) fun x hx => hcomp x (mem_inter.mp hx).1) ?_ (by simp)
      simp only [applyPresent, asItems_arr]
      rw [show arrayIntersection (arrayIntersection l (asItems s)) (asItems s) = _ from
        inter_eq_left (inter_within l (asItems s))]

omit hrefl in
/-- Where `one_of` is stated, no operator works on arrays. -/
theorem oneOf_again (h : PolicyOperator.all.foldlM (applyStated path ops) c = .ok r) :
    applyStated path ops r oneOf = .ok r := by
  cases hk : ops.get? oneOf.text with
  | none => exact applyStated_none hk r
  | some k =>
    obtain ⟨c₁, c₂, c₃, c₄, c₅, c₆, -, -, -, hone, hsub, hsup, hess⟩ := run_eq_ok.mp h
    have hlimit : applyStated path ops c₄ subsetOf = .ok c₄ :=
      applyStated_none (get?_none_of_oneOf hc hk subsetOf (by decide)) c₄
    obtain rfl := check_leaves rfl hess
    obtain rfl := check_leaves rfl hsup
    obtain rfl := Except.ok.inj (hlimit.symm.trans hsub)
    obtain rfl := check_leaves rfl hone
    exact hone

/-- The operators leave what they left before exactly when what `add` asks for stays. -/
theorem run_again_iff (h : PolicyOperator.all.foldlM (applyStated path ops) c = .ok r) :
    PolicyOperator.all.foldlM (applyStated path ops) r = .ok r ↔ AddStays ops c := by
  constructor
  · intro hagain l a s hvalue hl ha hs x hx
    obtain ⟨a, rfl, hmem⟩ := items_of_add hc ha
    have hr : r = some (.arr (arrayIntersection (arrayUnion l a) (asItems s))) := by
      rw [run_produced hc hrefl h, produced, hl, entering_present hvalue]
      simp only [Option.map_some, onItems, extend, limit, ha, hs, asItems_arr]
    have hr' : r = some (.arr (arrayIntersection
        (arrayUnion (arrayIntersection (arrayUnion l a) (asItems s)) a) (asItems s))) := by
      conv_lhs => rw [run_produced hc hrefl hagain, produced, hr, entering_present hvalue]
      simp only [Option.map_some, onItems, extend, limit, ha, hs, asItems_arr]
    have hkept := Json.arr.inj (Option.some.inj (hr.symm.trans hr'))
    -- the element is in the second union, within `subset_of`, and so in the first result
    obtain ⟨y, hy, hyx⟩ := covers_union_right (l := arrayIntersection (arrayUnion l a) (asItems s))
      (fun x hx => hrefl x (hmem x hx).1) x hx
    have hwithin : ∃ z ∈ asItems s, deepEqual y z = true :=
      (mem_union hy).elim (fun hy => (mem_inter.mp hy).2) fun hy => add_within hc ha hs y hy
    have hyleft : y ∈ arrayIntersection (arrayUnion l a) (asItems s) := by
      rw [hkept]
      exact mem_inter.mpr ⟨hy, hwithin⟩
    exact ⟨y, (mem_inter.mp hyleft).1, hyx, hwithin⟩
  · intro hstays
    cases hvalue : ops.get? value.text with
    | some m => exact fixed_again hc hrefl hvalue h
    | none =>
      have hsubset := subsetOf_again hc h
      have honeOf := oneOf_again hc h
      obtain ⟨c₁, c₂, c₃, c₄, c₅, c₆, -, -, -, -, -, hsup, hess⟩ := run_eq_ok.mp h
      obtain rfl := check_leaves rfl hess
      obtain rfl := check_leaves rfl hsup
      exact run_eq_ok.mpr ⟨_, _, _, _, _, _, applyStated_none hvalue _,
        add_again hc hrefl hvalue hstays h, default_again hc h, honeOf, hsubset, hsup, hess⟩

end Again

end OidFed
