import OidFed.Policy.NoLoosening

/-!
# The values of an operator, by strictness

* `ValueDomain`: a set of values on which `deepEqual` is an equivalence.
* `OperatorValue D op`: the values that an operator may carry, a preorder: the smaller of two is
  the stricter one (`Stricter`).
* `mergeValues_isGLB`, `mergeValues_isOk`: two values merge into their greatest lower bound, and
  they do so as soon as a proper value is as strict as both. Only an empty `one_of` is not proper.
* `combinesWith_mono`: two operators that go together also do with less strict values.
* `alike_of_antisymm`: values as strict as each other are equal up to order and duplicates.
-/

namespace OidFed

open Js UpTo

/-- A set of values on which `deepEqual` is an equivalence. -/
structure ValueDomain where
  values : Set Json
  equiv : EquivOn deepEqual (fun _ => true) values

theorem ValueDomain.comparable (D : ValueDomain) :
    EquivOn deepEqual isComparableElement D.values :=
  D.equiv.mono fun _ _ => rfl

/-- Equal up to the order and the duplicates of an array's elements. -/
def Alike : Json → Json → Prop
  | .arr l, .arr l' => Within deepEqual l l' ∧ Within deepEqual l' l
  | m, m' => deepEqual m m' = true

/-! ## Equality of drawn values -/

section Drawn

variable {D : ValueDomain}

/-- What equals a value that is no object is of the same kind. -/
theorem deepEqual_arr_left {l : List Json} {b : Json} (hb : b.isObject = false)
    (h : deepEqual (.arr l) b = true) : ∃ m, b = .arr m := by
  cases b with
  | arr m => exact ⟨m, rfl⟩
  | obj m => simp [Json.isObject] at hb
  | _ => simp [deepEqual, Json.isArray, Json.isObject] at h

theorem deepEqual_symm_drawn {a b : Json} (ha : DrawnFrom D.values a) (hb : DrawnFrom D.values b)
    (hao : a.isObject = false) (hbo : b.isObject = false) (h : deepEqual a b = true) :
    deepEqual b a = true := by
  cases a with
  | arr l =>
    obtain ⟨m, rfl⟩ := deepEqual_arr_left hbo h
    obtain ⟨hlen, hall⟩ := deepEqual_arr_arr.mp h
    refine deepEqual_arr_arr.mpr ⟨hlen.symm, fun i y hy => ?_⟩
    have hi : i < l.length := by
      rw [hlen]
      exact (List.getElem?_eq_some_iff.mp hy).1
    have hx : l[i]? = some l[i] := List.getElem?_eq_getElem hi
    obtain ⟨y', hy', hxy⟩ := hall i l[i] hx
    obtain rfl : y = y' := Option.some.inj (hy.symm.trans hy')
    exact ⟨l[i], hx, D.equiv.symm _ (ha _ (List.getElem_mem hi)) y
      (hb y (List.mem_of_getElem? hy)) rfl rfl hxy⟩
  | obj l => simp [Json.isObject] at hao
  | _ =>
    obtain rfl := (deepEqual_of_scalar rfl b).mp h
    exact h

theorem deepEqual_trans_drawn {a b c : Json} (ha : DrawnFrom D.values a)
    (hb : DrawnFrom D.values b) (hc : DrawnFrom D.values c) (hao : a.isObject = false)
    (hbo : b.isObject = false) (hco : c.isObject = false) (hab : deepEqual a b = true)
    (hbc : deepEqual b c = true) : deepEqual a c = true := by
  cases a with
  | arr l =>
    obtain ⟨m, rfl⟩ := deepEqual_arr_left hbo hab
    obtain ⟨k, rfl⟩ := deepEqual_arr_left hco hbc
    obtain ⟨hlen, hall⟩ := deepEqual_arr_arr.mp hab
    obtain ⟨hlen', hall'⟩ := deepEqual_arr_arr.mp hbc
    refine deepEqual_arr_arr.mpr ⟨hlen.trans hlen', fun i x hx => ?_⟩
    obtain ⟨y, hy, hxy⟩ := hall i x hx
    obtain ⟨z, hz, hyz⟩ := hall' i y hy
    exact ⟨z, hz, D.equiv.trans x (ha x (List.mem_of_getElem? hx)) y
      (hb y (List.mem_of_getElem? hy)) z (hc z (List.mem_of_getElem? hz)) rfl rfl rfl hxy hyz⟩
  | obj l => simp [Json.isObject] at hao
  | _ =>
    obtain rfl := (deepEqual_of_scalar rfl b).mp hab
    exact hbc

/-- Equal arrays lie within each other. -/
theorem within_of_deepEqual {l m : List Json} (h : deepEqual (.arr l) (.arr m) = true) :
    Within deepEqual l m := by
  obtain ⟨-, hall⟩ := deepEqual_arr_arr.mp h
  intro x hx
  obtain ⟨i, hi⟩ := List.mem_iff_getElem?.mp hx
  obtain ⟨y, hy, hxy⟩ := hall i x hi
  exact ⟨y, List.mem_of_getElem? hy, hxy⟩

end Drawn

namespace PolicyOperator

/-- No standard operator carries an object. -/
theorem Valued.not_object {U : Set Json} {op : PolicyOperator} {v : Json} (h : op.Valued U v) :
    v.isObject = false := by
  have hallowed := h.allowed
  cases v with
  | obj l =>
    cases op <;>
      simp [allowsValue, isValueOrDefaultMetadataValue, isScalar, Json.isArray,
        isComparableArray] at hallowed
  | _ => rfl

/-- The value `m` is at least as strict as `v`; of a default that asks for the same value. -/
def Stricter (op : PolicyOperator) (m v : Json) : Prop :=
  match op with
  | default => deepEqual m v = true
  | op => op.Refines m v

/-- The merge of the stated values has something left that the parameter may be. -/
def Proper (op : PolicyOperator) (m : Json) : Prop := op = oneOf → asItems m ≠ []

section Values

variable {D : ValueDomain} {op : PolicyOperator}

theorem stricter_refl {v : Json} (h : op.Valued D.values v) : op.Stricter v v := by
  cases op with
  | default => exact deepEqual_refl_of_drawn D.equiv.refl h.drawn
  | _ => exact refines_refl D.equiv.refl h

theorem stricter_trans {a b c : Json} (ha : op.Valued D.values a) (hb : op.Valued D.values b)
    (hc : op.Valued D.values c) (hab : op.Stricter a b) (hbc : op.Stricter b c) :
    op.Stricter a c := by
  have hequal : deepEqual a b = true → deepEqual b c = true → deepEqual a c = true :=
    deepEqual_trans_drawn ha.drawn hb.drawn hc.drawn ha.not_object hb.not_object hc.not_object
  have hcovers : op.allowsValue a = isComparableArray a → op.allowsValue b = isComparableArray b →
      op.allowsValue c = isComparableArray c → Covers deepEqual (asItems a) (asItems b) →
      Covers deepEqual (asItems b) (asItems c) → Covers deepEqual (asItems a) (asItems c) := by
    intro hopa hopb hopc h h'
    obtain ⟨l, rfl, hl⟩ := ha.array hopa
    obtain ⟨m, rfl, hm⟩ := hb.array hopb
    obtain ⟨k, rfl, hk⟩ := hc.array hopc
    exact D.comparable.covers_trans hl hm hk h h'
  have hwithin : op.allowsValue a = isComparableArray a → op.allowsValue b = isComparableArray b →
      op.allowsValue c = isComparableArray c → Within deepEqual (asItems a) (asItems b) →
      Within deepEqual (asItems b) (asItems c) → Within deepEqual (asItems a) (asItems c) := by
    intro hopa hopb hopc h h'
    obtain ⟨l, rfl, hl⟩ := ha.array hopa
    obtain ⟨m, rfl, hm⟩ := hb.array hopb
    obtain ⟨k, rfl, hk⟩ := hc.array hopc
    exact D.comparable.within_trans hl hm hk h h'
  cases op with
  | value => exact hequal hab hbc
  | default => exact hequal hab hbc
  | add => exact hcovers rfl rfl rfl hab hbc
  | supersetOf => exact hcovers rfl rfl rfl hab hbc
  | oneOf => exact hwithin rfl rfl rfl hab hbc
  | subsetOf => exact hwithin rfl rfl rfl hab hbc
  | essential => exact fun h => hab (hbc h)

end Values

/-- A value that the operator may carry, drawn from the domain. -/
structure OperatorValue (D : ValueDomain) (op : PolicyOperator) where
  json : Json
  valued : op.Valued D.values json

/-- The smaller value is the stricter one. -/
instance (D : ValueDomain) (op : PolicyOperator) : Preorder (OperatorValue D op) where
  le m v := op.Stricter m.json v.json
  le_refl v := stricter_refl v.valued
  le_trans a b c := stricter_trans a.valued b.valued c.valued

/-! ## Merging -/

section Merging

variable {D : ValueDomain} {op : PolicyOperator}

/-- What a value and a default merge into is the existing one. -/
theorem mergeValues_equal {x n m : Json} (hop : op = value ∨ op = default)
    (h : op.mergeValues x n = .ok m) : m = x ∧ deepEqual x n = true := by
  rcases hop with rfl | rfl
  all_goals
    simp only [mergeValues] at h
    split at h
    · rename_i heq
      exact ⟨(Except.ok.inj h).symm, heq⟩
    · simp at h

/-- The merged value is as strict as both. -/
theorem mergeValues_stricter {x n m : Json} (hx : op.Valued D.values x)
    (hn : op.Valued D.values n) (h : op.mergeValues x n = .ok m) :
    op.Valued D.values m ∧ op.Stricter m x ∧ op.Stricter m n := by
  obtain ⟨hm, hnew, hold⟩ := mergeValues_refines D.equiv.refl hx hn h
  have hrefl : op.Refines x x := refines_refl D.equiv.refl hx
  cases op with
  | default =>
    obtain ⟨rfl, heq⟩ := mergeValues_equal (.inr rfl) h
    exact ⟨hm, stricter_refl hx, heq⟩
  | _ => exact ⟨hm, hold x hrefl, hnew⟩

/-- What is as strict as both is as strict as the merged value. -/
theorem stricter_mergeValues {x n m c : Json} (hx : op.Valued D.values x)
    (hn : op.Valued D.values n) (hc : op.Valued D.values c) (hcx : op.Stricter c x)
    (hcn : op.Stricter c n) (h : op.mergeValues x n = .ok m) : op.Stricter c m := by
  cases op with
  | value =>
    obtain ⟨rfl, -⟩ := mergeValues_equal (.inl rfl) h
    exact hcx
  | default =>
    obtain ⟨rfl, -⟩ := mergeValues_equal (.inr rfl) h
    exact hcx
  | add =>
    obtain rfl := Except.ok.inj h
    exact covers_union hcx hcn
  | supersetOf =>
    obtain rfl := Except.ok.inj h
    exact covers_union hcx hcn
  | subsetOf =>
    obtain ⟨l, rfl, hl⟩ := hx.array rfl
    obtain ⟨k, rfl, hk⟩ := hn.array rfl
    obtain ⟨j, rfl, hj⟩ := hc.array rfl
    obtain rfl := Except.ok.inj h
    exact D.comparable.within_inter hl hk hj hcx hcn
  | oneOf =>
    obtain ⟨l, rfl, hl⟩ := hx.array rfl
    obtain ⟨k, rfl, hk⟩ := hn.array rfl
    obtain ⟨j, rfl, hj⟩ := hc.array rfl
    simp only [mergeValues] at h
    split at h
    · simp at h
    · obtain rfl := Except.ok.inj h
      exact D.comparable.within_inter hl hk hj hcx hcn
  | essential =>
    obtain rfl := Except.ok.inj h
    intro hm
    split at hm
    · exact hcx hm
    · exact hcn hm

theorem proper_mergeValues {x n m : Json} (h : op.mergeValues x n = .ok m) : op.Proper m := by
  rintro rfl
  simp only [mergeValues] at h
  split at h
  · simp at h
  · rename_i hne
    obtain rfl := Except.ok.inj h
    simpa using hne

/-- Two values merge into their greatest lower bound. -/
theorem mergeValues_isGLB (x n : OperatorValue D op) {m : Json}
    (h : op.mergeValues x.json n.json = .ok m) :
    ∃ M : OperatorValue D op, M.json = m ∧ IsGLB {x, n} M := by
  obtain ⟨hm, hmx, hmn⟩ := mergeValues_stricter x.valued n.valued h
  refine ⟨⟨m, hm⟩, rfl, ?_, fun c hc => ?_⟩
  · rintro v (rfl | rfl)
    · exact hmx
    · exact hmn
  · have hcx : c ≤ x := hc (by simp)
    have hcn : c ≤ n := hc (by simp)
    exact stricter_mergeValues x.valued n.valued c.valued hcx hcn h

/-- They merge if a proper value is as strict as both. -/
theorem mergeValues_isOk {x n c : OperatorValue D op} (hc : op.Proper c.json) (hcx : c ≤ x)
    (hcn : c ≤ n) : ∃ m, op.mergeValues x.json n.json = .ok m := by
  have hequal : deepEqual c.json x.json = true → deepEqual c.json n.json = true →
      deepEqual x.json n.json = true := by
    intro h h'
    have hxc := deepEqual_symm_drawn c.valued.drawn x.valued.drawn c.valued.not_object
      x.valued.not_object h
    exact deepEqual_trans_drawn x.valued.drawn c.valued.drawn n.valued.drawn x.valued.not_object
      c.valued.not_object n.valued.not_object hxc h'
  obtain ⟨x, hx⟩ := x
  obtain ⟨n, hn⟩ := n
  obtain ⟨c, hcv⟩ := c
  cases op with
  | value => exact ⟨x, by simp only [mergeValues, hequal hcx hcn, if_true]⟩
  | default => exact ⟨x, by simp only [mergeValues, hequal hcx hcn, if_true]⟩
  | oneOf =>
    obtain ⟨l, rfl, hl⟩ := hx.array rfl
    obtain ⟨k, rfl, hk⟩ := hn.array rfl
    obtain ⟨j, rfl, hj⟩ := hcv.array rfl
    obtain ⟨y, hy⟩ := List.exists_mem_of_ne_nil j (hc rfl)
    -- something of the proper value is left in the intersection
    obtain ⟨z, hz, -⟩ := D.comparable.within_inter hl hk hj hcx hcn y hy
    have hne : (arrayIntersection l k).isEmpty = false := by
      rw [List.isEmpty_eq_false_iff_exists_mem]
      exact ⟨z, hz⟩
    exact ⟨_, by simp only [mergeValues, asItems_arr, hne, Bool.false_eq_true, if_false]; rfl⟩
  | _ => exact ⟨_, rfl⟩

end Merging

/-! ## Combinations -/

section Combinations

variable {D : ValueDomain}

theorem Valued.items_mem {op : PolicyOperator} {v : Json} (h : op.Valued D.values v) :
    ∀ x ∈ asItems v, x ∈ D.values ∧ (fun _ : Json => true) x = true := by
  intro x hx
  cases v with
  | arr l => exact ⟨h.drawn x hx, rfl⟩
  | _ => simp [asItems, Json.items?] at hx

/-- Values of `value` that are equal are alike as far as the other operators look. -/
theorem value_kind {m v : Json} (hm : value.Valued D.values m) (hv : value.Valued D.values v)
    (h : deepEqual m v = true) :
    v.isArray = m.isArray ∧ (v = .null ↔ m = .null) ∧
      Within deepEqual (asItems m) (asItems v) ∧ Within deepEqual (asItems v) (asItems m) := by
  cases m with
  | arr l =>
    obtain ⟨k, rfl⟩ := deepEqual_arr_left hv.not_object h
    have hsymm := deepEqual_symm_drawn hm.drawn hv.drawn rfl rfl h
    exact ⟨rfl, by simp, within_of_deepEqual h, within_of_deepEqual hsymm⟩
  | obj l => exact absurd hm.not_object (by simp [Json.isObject])
  | _ =>
    obtain rfl := (deepEqual_of_scalar rfl v).mp h
    exact ⟨rfl, Iff.rfl, by simp [asItems, Json.items?, Within], by
      simp [asItems, Json.items?, Within]⟩

/-- A scalar is equal to itself only, on this side too. -/
theorem eq_of_deepEqual_scalar {a b : Json} (hb : isContainer b = false)
    (h : deepEqual a b = true) : a = b := by
  cases ha : isContainer a with
  | false => exact ((deepEqual_of_scalar ha b).mp h).symm
  | true =>
    have hcontainer : (b.isArray || b.isObject) = false := hb
    cases a with
    | arr l => simp [deepEqual, hcontainer] at h
    | obj l => simp [deepEqual, hcontainer] at h
    | _ => simp [isContainer, Json.isArray, Json.isObject] at ha

/-- Values of array operators: inclusion passes to less strict bounds. -/
theorem within_mono {a b : PolicyOperator} {ma va mb vb : Json} (hma : a.Valued D.values ma)
    (hva : a.Valued D.values va) (hmb : b.Valued D.values mb) (hvb : b.Valued D.values vb)
    (hlow : Covers deepEqual (asItems ma) (asItems va))
    (hup : Within deepEqual (asItems mb) (asItems vb))
    (h : isSubset (asItems ma) (asItems mb) = true) :
    isSubset (asItems va) (asItems vb) = true := by
  have hvm : Within deepEqual (asItems va) (asItems ma) :=
    D.equiv.within_of_covers hma.items_mem hva.items_mem hlow
  have hvmb : Within deepEqual (asItems va) (asItems mb) :=
    D.equiv.within_trans hva.items_mem hma.items_mem hmb.items_mem hvm (subset_iff.mp h)
  exact subset_iff.mpr
    (D.equiv.within_trans hva.items_mem hmb.items_mem hvb.items_mem hvmb hup)

theorem checkValueCombination_mono {other : PolicyOperator} {m v mo vo : Json}
    (hm : value.Valued D.values m) (hv : value.Valued D.values v)
    (hmo : other.Valued D.values mo) (hvo : other.Valued D.values vo) (hmv : deepEqual m v = true)
    (hstrict : other.Stricter mo vo) (h : checkValueCombination other m mo = true) :
    checkValueCombination other v vo = true := by
  obtain ⟨hkind, hnull, hwith, hwith'⟩ := value_kind hm hv hmv
  cases other with
  | value => simp [checkValueCombination] at h
  | add =>
    simp only [checkValueCombination, Bool.and_eq_true] at h ⊢
    exact ⟨hkind ▸ h.1, within_mono hmo hvo hm hv hstrict hwith h.2⟩
  | supersetOf =>
    simp only [checkValueCombination, Bool.and_eq_true] at h ⊢
    exact ⟨hkind ▸ h.1, within_mono hmo hvo hm hv hstrict hwith h.2⟩
  | subsetOf =>
    simp only [checkValueCombination, Bool.and_eq_true] at h ⊢
    refine ⟨hkind ▸ h.1, within_mono hm hv hmo hvo ?_ hstrict h.2⟩
    exact D.equiv.covers_of_within hv.items_mem hm.items_mem hwith'
  | default =>
    simp only [checkValueCombination, Bool.and_eq_true, bne_iff_ne, ne_eq] at h ⊢
    refine ⟨fun hvnull => h.1 (hnull.mp hvnull), ?_⟩
    have hvm := deepEqual_symm_drawn hm.drawn hv.drawn hm.not_object hv.not_object hmv
    have hvmo := deepEqual_trans_drawn hv.drawn hm.drawn hmo.drawn hv.not_object hm.not_object
      hmo.not_object hvm h.2
    exact deepEqual_trans_drawn hv.drawn hmo.drawn hvo.drawn hv.not_object hmo.not_object
      hvo.not_object hvmo hstrict
  | oneOf =>
    simp only [checkValueCombination, Bool.and_eq_true, Bool.not_eq_true'] at h ⊢
    refine ⟨hkind ▸ h.1, ?_⟩
    -- a value that is no array is a scalar, and one of the list itself
    have hscalar : isContainer m = false := by simp [isContainer, h.1, hm.not_object]
    obtain rfl := (deepEqual_of_scalar hscalar v).mp hmv
    obtain ⟨y, hy, hyv⟩ := contains_iff.mp h.2
    obtain rfl := eq_of_deepEqual_scalar hscalar hyv
    obtain ⟨z, hz, hyz⟩ := hstrict y hy
    obtain rfl := (deepEqual_of_scalar hscalar z).mp hyz
    exact contains_iff.mpr ⟨z, hz, hyz⟩
  | essential =>
    simp only [checkValueCombination, Bool.not_eq_true', Bool.and_eq_false_iff, beq_eq_false_iff_ne,
      ne_eq] at h ⊢
    rcases h with h | h
    · exact .inl fun hvnull => h (hnull.mp hvnull)
    · exact .inr fun hvtrue => h (hstrict hvtrue)

/-- Less strict values of two operators that go together do as well. -/
theorem combinesWith_mono {a b : PolicyOperator} {ma va : OperatorValue D a}
    {mb vb : OperatorValue D b} (ha : ma ≤ va) (hb : mb ≤ vb)
    (h : a.combinesWith b ma.json mb.json = true) : a.combinesWith b va.json vb.json = true := by
  obtain ⟨ma, hma⟩ := ma
  obtain ⟨va, hva⟩ := va
  obtain ⟨mb, hmb⟩ := mb
  obtain ⟨vb, hvb⟩ := vb
  have hab : b ≠ a := by
    rintro rfl
    simp [combinesWith] at h
  have hnever : neverAllowed.contains (a, b) = false := by
    by_contra hnever
    simp only [Bool.not_eq_false] at hnever
    simp only [combinesWith, hab, if_false, hnever, if_true, Bool.false_eq_true] at h
  simp only [combinesWith, hab, if_false, hnever, Bool.false_eq_true] at h ⊢
  -- `value` with another operator, in either order
  have hvalue : b = value → checkValueCombination a mb ma = true →
      checkValueCombination a vb va = true := by
    rintro rfl hcheck
    exact checkValueCombination_mono hmb hvb hma hva hb ha hcheck
  cases a with
  | value => exact checkValueCombination_mono hma hva hmb hvb ha hb h
  | add =>
    cases b with
    | value => exact hvalue rfl h
    | subsetOf =>
      simp only [Bool.and_eq_true] at h ⊢
      exact ⟨⟨hva.allowed, hvb.allowed⟩, within_mono hma hva hmb hvb ha hb h.2⟩
    | _ => rfl
  | default =>
    cases b with
    | value => exact hvalue rfl h
    | _ => rfl
  | oneOf =>
    cases b with
    | value => exact hvalue rfl h
    | _ => rfl
  | subsetOf =>
    cases b with
    | value => exact hvalue rfl h
    | add =>
      simp only [Bool.and_eq_true] at h ⊢
      exact ⟨⟨hva.allowed, hvb.allowed⟩, within_mono hmb hvb hma hva hb ha h.2⟩
    | supersetOf =>
      simp only [Bool.and_eq_true] at h ⊢
      exact ⟨⟨hva.allowed, hvb.allowed⟩, within_mono hmb hvb hma hva hb ha h.2⟩
    | _ => rfl
  | supersetOf =>
    cases b with
    | value => exact hvalue rfl h
    | subsetOf =>
      simp only [Bool.and_eq_true] at h ⊢
      exact ⟨⟨hva.allowed, hvb.allowed⟩, within_mono hma hva hmb hvb ha hb h.2⟩
    | _ => rfl
  | essential =>
    cases b with
    | value =>
      have hcheck : checkValueCombination essential mb ma = true := h
      exact hvalue rfl hcheck
    | _ => rfl

end Combinations

/-! ## Values as strict as each other -/

section Antisymm

variable {D : ValueDomain} {op : PolicyOperator}

theorem alike_of_deepEqual {a b : Json} (hb : b.isObject = false) (h : deepEqual a b = true)
    (h' : deepEqual b a = true) : Alike a b := by
  cases a with
  | arr l =>
    obtain ⟨m, rfl⟩ := deepEqual_arr_left hb h
    exact ⟨within_of_deepEqual h, within_of_deepEqual h'⟩
  | _ => exact h

theorem alike_of_antisymm {m m' : OperatorValue D op} (h : m ≤ m') (h' : m' ≤ m) :
    Alike m.json m'.json := by
  obtain ⟨m, hm⟩ := m
  obtain ⟨m', hm'⟩ := m'
  have hcovers : op.allowsValue m = isComparableArray m → op.allowsValue m' = isComparableArray m' →
      Covers deepEqual (asItems m) (asItems m') → Covers deepEqual (asItems m') (asItems m) →
      Alike m m' := by
    intro hop hop' hc hc'
    have hw := D.equiv.within_of_covers hm'.items_mem hm.items_mem hc'
    have hw' := D.equiv.within_of_covers hm.items_mem hm'.items_mem hc
    obtain ⟨l, rfl, -⟩ := hm.array hop
    obtain ⟨k, rfl, -⟩ := hm'.array hop'
    exact ⟨hw, hw'⟩
  have hwithin : op.allowsValue m = isComparableArray m → op.allowsValue m' = isComparableArray m' →
      Within deepEqual (asItems m) (asItems m') → Within deepEqual (asItems m') (asItems m) →
      Alike m m' := by
    intro hop hop' hw hw'
    obtain ⟨l, rfl, -⟩ := hm.array hop
    obtain ⟨k, rfl, -⟩ := hm'.array hop'
    exact ⟨hw, hw'⟩
  cases op with
  | value => exact alike_of_deepEqual hm'.not_object h h'
  | default => exact alike_of_deepEqual hm'.not_object h h'
  | add => exact hcovers rfl rfl h h'
  | supersetOf => exact hcovers rfl rfl h h'
  | oneOf => exact hwithin rfl rfl h h'
  | subsetOf => exact hwithin rfl rfl h h'
  | essential =>
    obtain ⟨a, rfl⟩ := hm.bool
    obtain ⟨b, rfl⟩ := hm'.bool
    have hiff : a = true ↔ b = true :=
      ⟨fun ha => by simpa using h' (by simp [ha]), fun hb => by simpa using h (by simp [hb])⟩
    obtain rfl : a = b := Bool.eq_iff_iff.mpr hiff
    simp [Alike, deepEqual]

end Antisymm

end PolicyOperator

end OidFed
