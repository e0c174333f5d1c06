import OidFed.Lib.Pipeline
import OidFed.Policy.Apply
import OidFed.Policy.DeepEqual

/-!
# What an operator demands, and what it keeps

* `Satisfies`: a parameter meets an operator.
* `Refines`: one value of an operator is at least as strict as another. Merging a superior's and
  a subordinate's value gives one that refines both (`mergeValues_refines`).
* `Holds`: what an operator has established once it is applied, and `holds_of_apply`,
  `holds_keep`: it establishes that, and a later operator it combines with keeps it. These carry
  the operators' fixed order.
* All of it for values drawn from a set on which `deepEqual` is an equivalence.
-/

namespace OidFed

open Js UpTo

/-- The elements of an array, or the value itself, are in `U`. -/
def DrawnFrom (U : Set Json) : Json → Prop
  | .arr l => ∀ x ∈ l, x ∈ U
  | .null => True
  | .bool _ => True
  | .num q => .num q ∈ U
  | .str s => .str s ∈ U
  | .obj l => .obj l ∈ U

namespace PolicyOperator

/-- The parameter `r` meets the operator with value `v`; membership and equality are the code's. -/
def Satisfies (op : PolicyOperator) (v : Json) (r : Option Json) : Prop :=
  match op with
  | value => if v = .null then r = none else ∃ w, r = some w ∧ deepEqual w v = true
  | add => ∃ l, r = some (.arr l) ∧ Covers deepEqual l (asItems v)
  | default => r.isSome
  | oneOf => ∀ w, r = some w → containsElement (asItems v) w = true
  | subsetOf => ∀ w, r = some w → ∃ l, w = .arr l ∧ isSubset l (asItems v) = true
  | supersetOf => ∀ w, r = some w → ∃ l, w = .arr l ∧ isSubset (asItems v) l = true
  | essential => v = .bool true → r.isSome

/-- The value `m` is at least as strict as `v`. -/
def Refines (op : PolicyOperator) (m v : Json) : Prop :=
  match op with
  | value => deepEqual m v = true
  | add => Covers deepEqual (asItems m) (asItems v)
  | default => True
  | oneOf => Within deepEqual (asItems m) (asItems v)
  | subsetOf => Within deepEqual (asItems m) (asItems v)
  | supersetOf => Covers deepEqual (asItems m) (asItems v)
  | essential => v = .bool true → m = .bool true

/-- What applying the operator establishes: it is met, with `value` the parameter is the
operator's own, and what was compared is comparable. -/
def Holds (op : PolicyOperator) (m : Json) (r : Option Json) : Prop :=
  match op with
  | value => r = if m = .null then none else some m
  | add => ∃ l, r = some (.arr l) ∧ (∀ x ∈ l, isComparableElement x = true) ∧
      Covers deepEqual l (asItems m)
  | default => r.isSome
  | oneOf =>
    ∀ w, r = some w → isComparableElement w = true ∧ containsElement (asItems m) w = true
  | subsetOf => ∀ w, r = some w → ∃ l, w = .arr l ∧ (∀ x ∈ l, isComparableElement x = true) ∧
      Within deepEqual l (asItems m)
  | supersetOf => ∀ w, r = some w → ∃ l, w = .arr l ∧ (∀ x ∈ l, isComparableElement x = true) ∧
      Within deepEqual (asItems m) l
  | essential => m = .bool true → r.isSome

variable {U : Set Json}

/-- The values of an operator that occur: of its type, and drawn from `U`. -/
structure Valued (U : Set Json) (op : PolicyOperator) (v : Json) : Prop where
  allowed : op.allowsValue v = true
  drawn : DrawnFrom U v

theorem Valued.array {op : PolicyOperator} {v : Json} (h : op.Valued U v)
    (hop : op.allowsValue v = isComparableArray v) :
    ∃ l, v = .arr l ∧ ∀ x ∈ l, x ∈ U ∧ isComparableElement x = true := by
  obtain ⟨l, rfl, hl⟩ := isComparableArray_iff.mp (hop ▸ h.allowed)
  exact ⟨l, rfl, fun x hx => ⟨h.drawn x hx, hl x hx⟩⟩

theorem Valued.bool {v : Json} (h : essential.Valued U v) : ∃ b, v = .bool b := by
  have := h.allowed
  cases v <;> simp [allowsValue] at this ⊢

/-! ## Merging -/

theorem deepEqual_refl_of_drawn (hrefl : ∀ x ∈ U, deepEqual x x = true) {v : Json}
    (h : DrawnFrom U v) : deepEqual v v = true := by
  cases v with
  | arr l =>
    exact deepEqual_arr_arr.mpr ⟨rfl, fun i a ha =>
      ⟨a, ha, hrefl a (h a (List.mem_of_getElem? ha))⟩⟩
  | null => simp [deepEqual]
  | bool b => simp [deepEqual]
  | num q => simp [deepEqual]
  | str s => simp [deepEqual]
  | obj l => exact hrefl _ h

theorem refines_refl (hrefl : ∀ x ∈ U, deepEqual x x = true) {op : PolicyOperator}
    {v : Json} (h : op.Valued U v) : op.Refines v v := by
  have hitems : ∀ x ∈ asItems v, deepEqual x x = true := by
    intro x hx
    cases v with
    | arr l => exact hrefl x (h.drawn x hx)
    | _ => simp [asItems, Json.items?] at hx
  cases op with
  | value => exact deepEqual_refl_of_drawn hrefl h.drawn
  | add => exact covers_self hitems
  | default => trivial
  | oneOf => exact within_self hitems
  | subsetOf => exact within_self hitems
  | supersetOf => exact covers_self hitems
  | essential => exact fun hv => hv

/-- Both values survive in the union. -/
theorem union_valued (hrefl : ∀ x ∈ U, deepEqual x x = true) {l k : List Json}
    (hl : ∀ x ∈ l, x ∈ U ∧ isComparableElement x = true)
    (hk : ∀ x ∈ k, x ∈ U ∧ isComparableElement x = true) :
    (∀ x ∈ arrayUnion l k, x ∈ U ∧ isComparableElement x = true) ∧
      Covers deepEqual (arrayUnion l k) k :=
  ⟨fun x hx => (mem_union hx).elim (hl x) (hk x), covers_union_right fun x hx => hrefl x (hk x hx).1⟩

theorem valued_arr {op : PolicyOperator} (hop : ∀ v, op.allowsValue v = isComparableArray v)
    {l : List Json} (hl : ∀ x ∈ l, x ∈ U ∧ isComparableElement x = true) :
    op.Valued U (.arr l) :=
  ⟨by rw [hop]; exact isComparableArray_iff.mpr ⟨l, rfl, fun x hx => (hl x hx).2⟩,
    fun x hx => (hl x hx).1⟩

/-- Merging refines: the merged value is as strict as the new one, and as whatever the existing
one was as strict as. -/
theorem mergeValues_refines (hrefl : ∀ x ∈ U, deepEqual x x = true) {op : PolicyOperator}
    {existing new merged : Json} (hx : op.Valued U existing) (hn : op.Valued U new)
    (h : op.mergeValues existing new = .ok merged) :
    op.Valued U merged ∧ op.Refines merged new ∧
      ∀ w, op.Refines existing w → op.Refines merged w := by
  cases op with
  | value =>
    simp only [mergeValues] at h
    split at h
    · rename_i heq
      obtain rfl := Except.ok.inj h
      exact ⟨hx, heq, fun w hw => hw⟩
    · simp at h
  | default =>
    simp only [mergeValues] at h
    split at h
    · obtain rfl := Except.ok.inj h
      exact ⟨hx, trivial, fun _ _ => trivial⟩
    · simp at h
  | add =>
    obtain ⟨l, rfl, hl⟩ := hx.array rfl
    obtain ⟨k, rfl, hk⟩ := hn.array rfl
    obtain rfl := Except.ok.inj h
    -- the union has all of the existing value, and covers the new one
    obtain ⟨hmem, hcov⟩ := union_valued hrefl hl hk
    exact ⟨valued_arr (fun _ => rfl) hmem, hcov, fun w hw => Covers.union_left hw k⟩
  | supersetOf =>
    obtain ⟨l, rfl, hl⟩ := hx.array rfl
    obtain ⟨k, rfl, hk⟩ := hn.array rfl
    obtain rfl := Except.ok.inj h
    obtain ⟨hmem, hcov⟩ := union_valued hrefl hl hk
    exact ⟨valued_arr (fun _ => rfl) hmem, hcov, fun w hw => Covers.union_left hw k⟩
  | subsetOf =>
    obtain ⟨l, rfl, hl⟩ := hx.array rfl
    obtain ⟨k, rfl, hk⟩ := hn.array rfl
    obtain rfl := Except.ok.inj h
    -- the intersection is made of elements of the existing value
    have hsub : ∀ x ∈ arrayIntersection l k, x ∈ l := fun x hx => (mem_inter.mp hx).1
    exact ⟨valued_arr (fun _ => rfl) fun x hx => hl x (hsub x hx), inter_within l k,
      fun w hw => hw.of_sublist hsub⟩
  | oneOf =>
    obtain ⟨l, rfl, hl⟩ := hx.array rfl
    obtain ⟨k, rfl, hk⟩ := hn.array rfl
    simp only [mergeValues] at h
    split at h
    · simp at h
    · obtain rfl := Except.ok.inj h
      have hsub : ∀ x ∈ arrayIntersection l k, x ∈ l := fun x hx => (mem_inter.mp hx).1
      exact ⟨valued_arr (fun _ => rfl) fun x hx => hl x (hsub x hx), inter_within l k,
        fun w hw => hw.of_sublist hsub⟩
  | essential =>
    obtain ⟨a, rfl⟩ := hx.bool
    obtain ⟨b, rfl⟩ := hn.bool
    cases a with
    | true =>
      obtain rfl := Except.ok.inj h
      exact ⟨hx, fun _ => rfl, fun w hw => hw⟩
    | false =>
      obtain rfl := Except.ok.inj h
      exact ⟨hn, fun hb => hb, fun w hw hw' => absurd (hw hw') (by simp)⟩

/-! ## Application -/

/-- What a standard operator does to a parameter, where it goes through. -/
def Effect (op : PolicyOperator) (m : Json) (c c' : Option Json) : Prop :=
  match op with
  | value => c' = if m = .null then none else some m
  | add =>
    (c = none ∧ c' = some m) ∨
      ∃ l, c = some (.arr l) ∧ (∀ x ∈ l, isComparableElement x = true) ∧
        c' = some (.arr (arrayUnion l (asItems m)))
  | default => (c = none ∧ c' = some m) ∨ (c.isSome ∧ c' = c)
  | oneOf =>
    c' = c ∧ ∀ w, c = some w → containsElement (asItems m) w = true ∧ isComparableElement w = true
  | subsetOf =>
    (c = none ∧ c' = none) ∨
      ∃ l, c = some (.arr l) ∧ (∀ x ∈ l, isComparableElement x = true) ∧
        c' = some (.arr (arrayIntersection l (asItems m)))
  | supersetOf =>
    c' = c ∧ ∀ w, c = some w → ∃ l, w = .arr l ∧ (∀ x ∈ l, isComparableElement x = true) ∧
      isSubset (asItems m) l = true
  | essential => c' = c ∧ (m = .bool true → c.isSome)

/-- An operator that goes through leaves the parameter the result it names. -/
theorem applyOperator_eq_ok {path name : String} {op : PolicyOperator} {m : Json}
    {c c' : Option Json} (h : applyOperator path c (name, m, op.definition) = .ok c') :
    op.allowsValue m = true ∧ ∃ result : PolicyOperatorResult,
      (c' = if result.removed then none else result.value) ∧
      match c with
      | none => op.applyAbsent m = .ok result
      | some v => op.supports v = true ∧ op.applyPresent v m = .ok result := by
  simp only [applyOperator, definition] at h
  cases hr : op.apply c m with
  | error e => rw [hr] at h; simp [policyViolation] at h
  | ok result =>
    rw [hr] at h
    obtain ⟨hallowed, hnext⟩ := configured_eq_ok.mp hr
    refine ⟨hallowed, result, ?_, ?_⟩
    · simp only at h
      split at h
      · rename_i hrem
        simpa [hrem] using (Except.ok.inj h).symm
      · rename_i hrem
        split at h
        · simp [policyViolation] at h
        · simpa [hrem] using (Except.ok.inj h).symm
    · cases c with
      | none => exact hnext
      | some v =>
        simp only at hnext ⊢
        split at hnext
        · rename_i hs
          exact ⟨hs, hnext⟩
        · simp at hnext

theorem applyOperator_effect {path name : String} {op : PolicyOperator} {m : Json}
    {c c' : Option Json} (h : applyOperator path c (name, m, op.definition) = .ok c') :
    op.Effect m c c' := by
  obtain ⟨-, result, rfl, hc⟩ := applyOperator_eq_ok h
  cases op with
  | value =>
    -- `value` does not look at what there is, beyond its type
    have hvalue : (if m = .null then Except.ok { value := some .null, removed := true }
        else .ok { value := some m }) = Except.ok (ε := String) result := by
      cases c with
      | none => exact hc
      | some v => exact hc.2
    split at hvalue <;> obtain rfl := Except.ok.inj hvalue <;> simp_all [Effect]
  | add =>
    cases c with
    | none =>
      obtain rfl := Except.ok.inj hc
      exact .inl ⟨rfl, rfl⟩
    | some v =>
      obtain ⟨l, rfl, hl⟩ := isComparableArray_iff.mp hc.1
      obtain rfl := Except.ok.inj hc.2
      exact .inr ⟨l, rfl, hl, rfl⟩
  | default =>
    cases c with
    | none =>
      obtain rfl := Except.ok.inj hc
      exact .inl ⟨rfl, rfl⟩
    | some v =>
      obtain rfl := Except.ok.inj hc.2
      exact .inr ⟨rfl, rfl⟩
  | oneOf =>
    cases c with
    | none =>
      obtain rfl := Except.ok.inj hc
      exact ⟨rfl, by simp⟩
    | some v =>
      have happly := hc.2
      simp only [applyPresent] at happly
      split at happly
      · rename_i hmem
        obtain rfl := Except.ok.inj happly
        exact ⟨rfl, fun w hw => Option.some.inj hw ▸ ⟨hmem, hc.1⟩⟩
      · simp at happly
  | subsetOf =>
    cases c with
    | none =>
      obtain rfl := Except.ok.inj hc
      exact .inl ⟨rfl, rfl⟩
    | some v =>
      obtain ⟨l, rfl, hl⟩ := isComparableArray_iff.mp hc.1
      obtain rfl := Except.ok.inj hc.2
      exact .inr ⟨l, rfl, hl, rfl⟩
  | supersetOf =>
    cases c with
    | none =>
      obtain rfl := Except.ok.inj hc
      exact ⟨rfl, by simp⟩
    | some v =>
      obtain ⟨l, rfl, hl⟩ := isComparableArray_iff.mp hc.1
      have happly := hc.2
      simp only [applyPresent] at happly
      split at happly
      · rename_i hmem
        obtain rfl := Except.ok.inj happly
        exact ⟨rfl, fun w hw => Option.some.inj hw ▸ ⟨l, rfl, hl, hmem⟩⟩
      · simp at happly
  | essential =>
    cases c with
    | none =>
      simp only [applyAbsent] at hc
      -- an absent value passes unless the parameter is essential
      split at hc
      · simp at hc
      · rename_i hm
        obtain rfl := Except.ok.inj hc
        exact ⟨rfl, fun h => absurd h hm⟩
    | some v =>
      obtain rfl := Except.ok.inj hc.2
      exact ⟨rfl, fun _ => rfl⟩

/-- The parameter as a source of values: present values are drawn from `U`. -/
def ParameterDrawn (U : Set Json) (c : Option Json) : Prop := ∀ v, c = some v → DrawnFrom U v

theorem effect_drawn {op : PolicyOperator} {m : Json} {c c' : Option Json} (hm : op.Valued U m)
    (hc : ParameterDrawn U c) (h : op.Effect m c c') : ParameterDrawn U c' := by
  intro v hv
  cases op with
  | value =>
    obtain rfl : c' = _ := h
    split at hv
    · simp at hv
    · exact Option.some.inj hv ▸ hm.drawn
  | add =>
    rcases h with ⟨-, rfl⟩ | ⟨l, rfl, -, rfl⟩
    · exact Option.some.inj hv ▸ hm.drawn
    · obtain ⟨k, rfl, hk⟩ := hm.array rfl
      rw [← Option.some.inj hv]
      exact fun x hx => (mem_union hx).elim (hc _ rfl x) fun h => (hk x h).1
  | default =>
    rcases h with ⟨-, rfl⟩ | ⟨-, rfl⟩
    · exact Option.some.inj hv ▸ hm.drawn
    · exact hc v hv
  | subsetOf =>
    rcases h with ⟨-, rfl⟩ | ⟨l, rfl, -, rfl⟩
    · simp at hv
    · rw [← Option.some.inj hv]
      exact fun x hx => hc _ rfl x (mem_inter.mp hx).1
  | oneOf => exact hc v (h.1 ▸ hv)
  | supersetOf => exact hc v (h.1 ▸ hv)
  | essential => exact hc v (h.1 ▸ hv)

/-- An operator that has been applied holds. -/
theorem holds_of_effect (he : EquivOn deepEqual isComparableElement U) {op : PolicyOperator}
    {m : Json} {c c' : Option Json} (hm : op.Valued U m) (h : op.Effect m c c') :
    op.Holds m c' := by
  cases op with
  | value => exact h
  | add =>
    obtain ⟨k, rfl, hk⟩ := hm.array rfl
    have hrefl : ∀ x ∈ k, deepEqual x x = true := fun x hx => he.refl x (hk x hx).1
    rcases h with ⟨-, rfl⟩ | ⟨l, rfl, hl, rfl⟩
    · exact ⟨k, rfl, fun x hx => (hk x hx).2, covers_self hrefl⟩
    · exact ⟨_, rfl, fun x hx => (mem_union hx).elim (hl x) fun h => (hk x h).2,
        covers_union_right hrefl⟩
  | default =>
    rcases h with ⟨-, rfl⟩ | ⟨hsome, rfl⟩
    · rfl
    · exact hsome
  | oneOf =>
    obtain ⟨rfl, h⟩ := h
    exact fun w hw => (h w hw).symm
  | subsetOf =>
    rcases h with ⟨-, rfl⟩ | ⟨l, rfl, hl, rfl⟩
    · exact fun w hw => by simp at hw
    · intro w hw
      rw [← Option.some.inj hw]
      exact ⟨_, rfl, fun x hx => hl x (mem_inter.mp hx).1, inter_within l (asItems m)⟩
  | supersetOf =>
    obtain ⟨rfl, h⟩ := h
    intro w hw
    obtain ⟨l, rfl, hl, hsub⟩ := h w hw
    exact ⟨l, rfl, hl, subset_iff.mp hsub⟩
  | essential =>
    obtain ⟨rfl, h⟩ := h
    exact h

/-- `value` and a later operator that may stand with it: the later one changes nothing. -/
theorem value_keep (he : EquivOn deepEqual isComparableElement U) {b : PolicyOperator}
    {ma mb : Json} {c c' : Option Json} (hcomb : value.combinesWith b ma mb = true)
    (ha : value.Valued U ma) (hb : b.Valued U mb) (h : value.Holds ma c)
    (heff : b.Effect mb c c') : c' = c := by
  obtain rfl : c = if ma = .null then none else some ma := h
  cases b with
  | value => simp [combinesWith] at hcomb
  | add =>
    simp only [combinesWith, checkValueCombination, neverAllowed] at hcomb
    obtain ⟨k, rfl, hk⟩ := hb.array rfl
    cases ma with
    | arr l =>
      have hsub : Within deepEqual k l := subset_iff.mp (by simpa [Json.isArray, isSubset] using hcomb)
      rcases heff with ⟨hnone, -⟩ | ⟨l', hl', hcomp, rfl⟩
      · simp at hnone
      · obtain rfl : l = l' := by simpa using hl'
        have hcov : Covers deepEqual l k := he.covers_of_within hk
          (fun x hx => ⟨ha.drawn x hx, hcomp x hx⟩) hsub
        simpa [arrayUnion] using union_eq_left hcov
    | _ => simp [Json.isArray] at hcomb
  | default =>
    simp only [combinesWith, checkValueCombination, neverAllowed] at hcomb
    rcases heff with ⟨hnone, -⟩ | ⟨-, hsame⟩
    · split at hnone
      · rename_i hnull
        simp [hnull] at hcomb
      · simp at hnone
    · exact hsame
  | subsetOf =>
    simp only [combinesWith, checkValueCombination, neverAllowed] at hcomb
    rcases heff with ⟨hnone, rfl⟩ | ⟨l, hl, -, rfl⟩
    · exact hnone.symm
    · split at hl
      · simp at hl
      · obtain rfl := Option.some.inj hl
        have hsub : Within deepEqual l (asItems mb) :=
          subset_iff.mp (by simpa [Json.isArray, isSubset] using hcomb)
        simp [arrayIntersection, inter_eq_left hsub]
  | oneOf => exact heff.1
  | supersetOf => exact heff.1
  | essential => exact heff.1

/-- A later operator that may stand with an operator keeps what that has established. -/
theorem holds_keep (he : EquivOn deepEqual isComparableElement U) {a b : PolicyOperator}
    {ma mb : Json} {c c' : Option Json} (hlt : a.order < b.order)
    (hcomb : a.combinesWith b ma mb = true) (ha : a.Valued U ma) (hb : b.Valued U mb)
    (hc : ParameterDrawn U c) (h : a.Holds ma c) (heff : b.Effect mb c c') : a.Holds ma c' := by
  by_cases hv : a = value
  · subst hv
    rw [value_keep he hcomb ha hb h heff]
    exact h
  cases b with
  | value => cases a <;> norm_num [order] at hlt
  | add => cases a <;> first | exact absurd rfl hv | norm_num [order] at hlt
  | default =>
    rcases heff with ⟨rfl, -⟩ | ⟨-, rfl⟩
    · cases a with
      | add =>
        obtain ⟨l, hl, -⟩ := h
        simp at hl
      | value => exact absurd rfl hv
      | _ => norm_num [order] at hlt
    · exact h
  | subsetOf =>
    rcases heff with ⟨rfl, rfl⟩ | ⟨l, rfl, hcomp, rfl⟩
    · exact h
    · obtain ⟨k, rfl, hk⟩ := hb.array rfl
      cases a with
      | value => exact absurd rfl hv
      | add =>
        obtain ⟨j, rfl, hj⟩ := ha.array rfl
        obtain ⟨l', hl', -, hcov⟩ := h
        obtain rfl : l = l' := by simpa using hl'
        have hsub : Within deepEqual j k := by
          simp only [combinesWith, neverAllowed] at hcomb
          exact subset_iff.mp (by simp_all [isSubset])
        exact ⟨_, rfl, fun x hx => hcomp x (mem_inter.mp hx).1,
          he.covers_inter (fun x hx => ⟨hc _ rfl x hx, hcomp x hx⟩) hk hj hcov hsub⟩
      | default => rfl
      | oneOf => simp [combinesWith, neverAllowed] at hcomb
      | _ => norm_num [order] at hlt
  | oneOf => exact heff.1 ▸ h
  | supersetOf => exact heff.1 ▸ h
  | essential => exact heff.1 ▸ h

/-- What holds of a strict value is met for the values it refines. -/
theorem satisfies_of_holds (he : EquivOn deepEqual isComparableElement U) {op : PolicyOperator}
    {m v : Json} {c : Option Json} (hm : op.Valued U m) (hv : op.Valued U v)
    (hc : ParameterDrawn U c) (href : op.Refines m v) (h : op.Holds m c) : op.Satisfies v c := by
  cases op with
  | value =>
    obtain rfl : c = if m = .null then none else some m := h
    by_cases hnull : m = .null
    · subst hnull
      have : v = .null := by simpa [Refines, deepEqual] using href
      simp [Satisfies, this]
    · have hv' : v ≠ .null := by
        rintro rfl
        exact hnull (deepEqual_null_right.mp href)
      simp only [Satisfies, hv', hnull, if_false]
      exact ⟨m, rfl, href⟩
  | add =>
    obtain ⟨j, rfl, hj⟩ := hm.array rfl
    obtain ⟨k, rfl, hk⟩ := hv.array rfl
    obtain ⟨l, rfl, hl, hcov⟩ := h
    exact ⟨l, rfl, he.covers_trans (fun x hx => ⟨hc _ rfl x hx, hl x hx⟩) hj hk hcov href⟩
  | default => exact h
  | oneOf =>
    obtain ⟨j, rfl, hj⟩ := hm.array rfl
    obtain ⟨k, rfl, hk⟩ := hv.array rfl
    intro w hw
    obtain ⟨hcomp, hmem⟩ := h w hw
    have hwU : w ∈ U := by
      have := hc w hw
      cases w <;> first | exact this | simp [isComparableElement] at hcomp
    -- a member of the merged values is in each of the stated ones, by transitivity
    have hsingle : Covers deepEqual k [w] := by
      refine he.covers_trans hk hj (by simp [hwU, hcomp]) (he.covers_of_within hj hk href) ?_
      intro x hx
      obtain rfl := List.mem_singleton.mp hx
      exact contains_iff.mp hmem
    exact contains_iff.mpr (hsingle w List.mem_cons_self)
  | subsetOf =>
    obtain ⟨j, rfl, hj⟩ := hm.array rfl
    obtain ⟨k, rfl, hk⟩ := hv.array rfl
    intro w hw
    obtain ⟨l, rfl, hl, hwith⟩ := h w hw
    exact ⟨l, rfl, subset_iff.mpr
      (he.within_trans (fun x hx => ⟨hc _ hw x hx, hl x hx⟩) hj hk hwith href)⟩
  | supersetOf =>
    obtain ⟨j, rfl, hj⟩ := hm.array rfl
    obtain ⟨k, rfl, hk⟩ := hv.array rfl
    intro w hw
    obtain ⟨l, rfl, hl, hwith⟩ := h w hw
    exact ⟨l, rfl, subset_iff.mpr (he.within_trans hk hj (fun x hx => ⟨hc _ hw x hx, hl x hx⟩)
      (he.within_of_covers hj hk href) hwith)⟩
  | essential => exact fun hv => h (href hv)

end PolicyOperator

end OidFed
