import OidFed.Policy.Mergeable

/-!
# Merging does not depend on the order of the statements

* `SamePolicy`: the same entity types, parameters and operators, with values that are alike.
* `OrderIndependent U`: statements drawn from `U` merge in every order or in none, and into the
  same policy. What a merge needs and what it leaves are said by `Mergeable` and
  `MergedParameter`, in which the order plays no part.
* `orderIndependent_iff`: the law holds over `U` exactly when `deepEqual` is an equivalence there.
  `orderIndependent_perParameter` says so of each call, parameter by parameter.
-/

namespace OidFed

open Js UpTo PolicyOperator

variable {D : ValueDomain} {entityType paramName : String}

/-! ## In any order -/

/-- The same operators, with values that are alike. -/
def SameOperators (ops ops' : ParameterPolicy) : Prop :=
  ∀ name, Option.Rel Alike (ops.get? name) (ops'.get? name)

/-- The same entity types, parameters and operators, with values that are alike. -/
structure SamePolicy (merged merged' : ResolvedMetadataPolicy) : Prop where
  entityTypes : ∀ entityType, (merged.get? entityType).isSome ↔ (merged'.get? entityType).isSome
  parameters : ∀ entityType paramName, Option.Rel SameOperators
    (parameterPolicy merged entityType paramName) (parameterPolicy merged' entityType paramName)

section Reordered

variable {stmts stmts' : List PolicyStatement}

theorem statedValues_perm (hperm : stmts.Perm stmts') (op : PolicyOperator) :
    (statedValues entityType paramName op stmts).Perm
      (statedValues entityType paramName op stmts') := hperm.filterMap _

theorem Mergeable.perm {U : Set Json} (hperm : stmts.Perm stmts')
    (h : Mergeable U entityType paramName stmts) : Mergeable U entityType paramName stmts' := by
  obtain ⟨strict, hstrict⟩ := h.refined
  have hvalues : ∀ op : PolicyOperator, (statedValues entityType paramName op stmts).Perm
      (statedValues entityType paramName op stmts') := statedValues_perm hperm
  refine ⟨⟨fun op v hv => ?_, fun s hs => ?_⟩, strict, hstrict.combined, fun op v hv => ?_,
    fun op m hm hlen => ?_⟩
  · exact h.readable.allowed op v ((hvalues op).mem_iff.mpr hv)
  · exact h.readable.names s (hperm.mem_iff.mpr hs)
  · exact hstrict.stricter op v ((hvalues op).mem_iff.mpr hv)
  · exact hstrict.proper op m hm ((hvalues op).length_eq ▸ hlen)

/-- The same values merge into values that are alike. -/
theorem MergedValue.alike {op : PolicyOperator} {vs vs' : List Json} (hperm : vs.Perm vs')
    {m m' : Option Json} (h : MergedValue D op vs m) (h' : MergedValue D op vs' m') :
    Option.Rel Alike m m' := by
  cases m with
  | none =>
    obtain rfl : vs = [] := h
    obtain rfl : vs' = [] := hperm.nil_eq.symm
    cases m' with
    | none => exact .none
    | some m' =>
      have hm' : Loosest D op [] m' := h'
      exact absurd rfl hm'.stated
  | some m =>
    have hm : Loosest D op vs m := h
    cases m' with
    | none =>
      obtain rfl : vs' = [] := h'
      exact absurd hperm.eq_nil hm.stated
    | some m' =>
      have hm' : Loosest D op vs' m' := h'
      obtain ⟨M, rfl, hglb⟩ := hm.isGLB
      obtain ⟨M', rfl, hglb'⟩ := hm'.isGLB
      have hset : {v : OperatorValue D op | v.json ∈ vs} = {v | v.json ∈ vs'} := by
        ext v
        exact hperm.mem_iff
      rw [hset] at hglb
      exact .some (alike_of_antisymm (hglb'.2 hglb.1) (hglb.2 hglb'.1))

theorem MergedParameter.same {merged merged' : Option ParameterPolicy}
    (hperm : stmts.Perm stmts') (h : MergedParameter D entityType paramName stmts merged)
    (h' : MergedParameter D entityType paramName stmts' merged') :
    Option.Rel SameOperators merged merged' := by
  have hpresent : merged.isSome ↔ merged'.isSome := by
    rw [h.present, h'.present]
    simp only [hperm.mem_iff]
  cases merged with
  | none =>
    cases merged' with
    | none => exact .none
    | some ops' => simp at hpresent
  | some ops =>
    cases merged' with
    | none => simp at hpresent
    | some ops' =>
      refine .some fun name => ?_
      cases hname : ofText? name with
      | none =>
        have hnone : ops.get? name = none := h.known name hname
        have hnone' : ops'.get? name = none := h'.known name hname
        rw [hnone, hnone']
        exact .none
      | some op =>
        obtain rfl := text_of_ofText? hname
        exact (h.values op).alike (statedValues_perm hperm op) (h'.values op)

end Reordered

/-! ## The law -/

/-- Both lists of statements merge or neither does, and into the same policy. -/
structure MergeAlike (stmts stmts' : List PolicyStatement) : Prop where
  merges : (∃ merged, resolveMetadataPolicy stmts = .ok merged) ↔
    ∃ merged, resolveMetadataPolicy stmts' = .ok merged
  same : ∀ merged merged', resolveMetadataPolicy stmts = .ok merged →
    resolveMetadataPolicy stmts' = .ok merged' → SamePolicy merged merged'

/-- Statements drawn from `U`, in any order, merge or not alike, and into the same policy. -/
def OrderIndependent (U : Set Json) : Prop :=
  ∀ stmts stmts' : List PolicyStatement, stmts.Perm stmts' → (∀ stmt ∈ stmts, stmt.Drawn U) →
    (∀ stmt ∈ stmts, stmt.PlainNames) → MergeAlike stmts stmts'

/-- The values of each parameter may be drawn from a domain of their own. -/
theorem mergeAlike_of_domains (E : String → String → ValueDomain)
    {stmts stmts' : List PolicyStatement} (hperm : stmts.Perm stmts')
    (hdrawn : ∀ entityType paramName, ∀ stmt ∈ stmts,
      stmt.DrawnAt (E entityType paramName).values entityType paramName)
    (hnames : ∀ stmt ∈ stmts, stmt.PlainNames) : MergeAlike stmts stmts' := by
  have hdrawn' : ∀ entityType paramName, ∀ stmt ∈ stmts',
      stmt.DrawnAt (E entityType paramName).values entityType paramName :=
    fun e p stmt hs => hdrawn e p stmt (hperm.mem_iff.mpr hs)
  have hnames' : ∀ stmt ∈ stmts', stmt.PlainNames :=
    fun stmt hs => hnames stmt (hperm.mem_iff.mpr hs)
  refine ⟨?_, fun merged merged' h h' => ⟨fun entityType => ?_, fun entityType paramName => ?_⟩⟩
  · rw [resolveMetadataPolicy_isOk_iff hdrawn hnames,
      resolveMetadataPolicy_isOk_iff hdrawn' hnames']
    have hcrit : ∀ critOp, critOp ∈ stmts.flatMap PolicyStatement.metadataPolicyCrit ↔
        critOp ∈ stmts'.flatMap PolicyStatement.metadataPolicyCrit :=
      fun critOp => (hperm.flatMap_right _).mem_iff
    simp only [hcrit]
    exact and_congr_right fun _ =>
      ⟨fun hm e p => (hm e p).perm hperm, fun hm e p => (hm e p).perm hperm.symm⟩
  · rw [resolveMetadataPolicy_entityType h, resolveMetadataPolicy_entityType h']
    simp only [hperm.mem_iff]
  · obtain ⟨lookup, hl, -, hfold⟩ := resolveMetadataPolicy_eq_ok.mp h
    obtain rfl : operators = lookup := Except.ok.inj (buildOperatorLookup_standard.symm.trans hl)
    obtain ⟨lookup, hl', -, hfold'⟩ := resolveMetadataPolicy_eq_ok.mp h'
    obtain rfl : operators = lookup := Except.ok.inj (buildOperatorLookup_standard.symm.trans hl')
    exact (mergedParameter_of_fold (hdrawn entityType paramName) hnames hfold).1.same hperm
      (mergedParameter_of_fold (hdrawn' entityType paramName) hnames' hfold').1

theorem orderIndependent_of_domain (D : ValueDomain) : OrderIndependent D.values :=
  fun _ _ hperm hdrawn hnames => mergeAlike_of_domains (fun _ _ => D) hperm
    (fun e p stmt hs => (hdrawn stmt hs).at e p) hnames

/-! ## Where the law needs an equivalence

Statements that fix a parameter to one-element arrays show each law of an equivalence. -/

/-- The operators, and the statement, that fix `contacts` to `[x]`. -/
def fixedOperators (x : Json) : ParameterPolicy := Dict.empty.set "value" (.arr [x])

def fixed (x : Json) : PolicyStatement := { metadataPolicy := some (onContacts (fixedOperators x)) }

theorem fixed_drawn {U : Set Json} {x : Json} (hx : x ∈ U) : (fixed x).Drawn U := by
  intro entityType paramName ops hops op v hv
  obtain rfl := eq_of_onContacts hops
  rw [fixedOperators, Dict.get?_set, Dict.get?_empty] at hv
  split at hv
  · obtain rfl := Option.some.inj hv
    simpa [DrawnFrom] using hx
  · simp at hv

theorem fixed_plainNames (x : Json) : (fixed x).PlainNames := by
  refine ⟨fun entityType h => ?_, fun entityType paramName h => ?_⟩
  · simp only [PolicyStatement.entityTypePolicy, fixed, Option.bind_some, onContacts,
      Dict.get?_set, Dict.get?_empty] at h
    split at h
    · rename_i hname
      subst hname
      decide
    · simp at h
  · simp only [PolicyStatement.parameterPolicy, PolicyStatement.entityTypePolicy, fixed,
      Option.bind_some, onContacts, Dict.get?_set, Dict.get?_empty] at h
    split at h
    · simp only [Option.bind_some, Dict.get?_set, Dict.get?_empty] at h
      split at h
      · rename_i hname
        subst hname
        decide
      · simp at h
    · simp at h

theorem deepEqual_singletons {x y : Json} :
    deepEqual (.arr [x]) (.arr [y]) = true ↔ deepEqual x y = true := by
  rw [deepEqual_arr_arr]
  constructor
  · rintro ⟨-, h⟩
    simpa using h 0 x rfl
  · intro h
    refine ⟨rfl, fun i a hi => ?_⟩
    cases i with
    | zero =>
      obtain rfl : x = a := by simpa using hi
      exact ⟨y, rfl, h⟩
    | succ i => simp at hi

/-- Operators merged into those of `contacts`, as a statement. -/
theorem mergeStatement_onContacts {ops cur after : ParameterPolicy}
    (h : mergeOperators operators "openid_relying_party.contacts" ops cur = .ok (some after)) :
    mergeStatement operators (onContacts cur) { metadataPolicy := some (onContacts ops) } =
      .ok (onContacts after) := by
  have hparam : mergeParameter operators "openid_relying_party" "contacts" ops (some cur) =
      .ok (some after) := h
  have htype : mergeEntityType operators "openid_relying_party" (Dict.empty.set "contacts" ops)
      (some (Dict.empty.set "contacts" cur)) = .ok (some (Dict.empty.set "contacts" after)) := by
    have hone := Dict.updateM_singleton (mergeParameter operators "openid_relying_party")
      "contacts" ops (Dict.empty.set "contacts" cur) hparam
    change (Dict.updateM (mergeParameter operators "openid_relying_party") [("contacts", ops)]
      (Dict.empty.set "contacts" cur) >>= fun d => Except.ok (some d)) = _
    rw [hone]
    rfl
  exact Dict.updateM_singleton (mergeEntityType operators) "openid_relying_party" _
    (onContacts cur) htype

/-- Another value is merged into `[x]` if it equals `x`, and changes nothing. -/
theorem mergeStatement_fixed {x y : Json} {merged : ResolvedMetadataPolicy} :
    mergeStatement operators (onContacts (fixedOperators x)) (fixed y) = .ok merged ↔
      deepEqual x y = true ∧ merged = onContacts (fixedOperators x) := by
  have hok : deepEqual x y = true →
      mergeStatement operators (onContacts (fixedOperators x)) (fixed y) =
        .ok (onContacts (fixedOperators x)) := by
    intro hxy
    have hvalues : value.mergeValues (.arr [x]) (.arr [y]) = .ok (.arr [x]) := by
      simp only [mergeValues, deepEqual_singletons.mpr hxy, if_true]
    have hmerge : mergeOperator operators "openid_relying_party.contacts" "value" (.arr [y])
        ((fixedOperators x).get? "value") = .ok (some (.arr [x])) :=
      mergeOperator_next (show value.allowsValue (.arr [x]) = true from rfl) rfl hvalues _
    refine mergeStatement_onContacts ?_
    have hupdate : Dict.updateM (mergeOperator operators "openid_relying_party.contacts")
        (fixedOperators y).members (fixedOperators x) = .ok (fixedOperators x) :=
      Dict.updateM_singleton (mergeOperator operators "openid_relying_party.contacts") "value"
        (.arr [y]) (fixedOperators x) hmerge
    simp only [mergeOperators, hupdate, bind, Except.bind]
    rfl
  constructor
  · intro h
    have hstep := mergeStatement_parameter h "openid_relying_party" "contacts"
    have hparam : mergeParameter operators "openid_relying_party" "contacts" (fixedOperators y)
        (some (fixedOperators x)) = .ok (parameterPolicy merged "openid_relying_party" "contacts") :=
      hstep
    rw [mergeParameter_of_not_inherited (by decide)] at hparam
    obtain ⟨ops, -, -, hvalue, -⟩ := mergeOperators_eq_ok hparam
    have hxy : deepEqual x y = true := by
      rcases mergeOperator_standard (hvalue "value" (.arr [y]) rfl) with
        ⟨hnone, -⟩ | ⟨op, hname, -, hcase⟩
      · exact absurd hnone (by decide)
      obtain rfl : op = value := text_injective hname
      rcases hcase with ⟨hnone, -⟩ | ⟨m, m', hm, -, hmerge⟩
      · exact absurd hnone (by simp [fixedOperators])
      · obtain rfl : Json.arr [x] = m := by simpa [fixedOperators] using hm
        exact deepEqual_singletons.mp (mergeValues_equal (.inl rfl) hmerge).2
    refine ⟨hxy, ?_⟩
    rw [hok hxy] at h
    exact (Except.ok.inj h).symm
  · rintro ⟨hxy, rfl⟩
    exact hok hxy

/-- Values fixed below `x` merge exactly when each of them equals `x`. -/
theorem resolve_fixed {x : Json} {ys : List Json} {merged : ResolvedMetadataPolicy} :
    resolveMetadataPolicy (ys.map fixed ++ [fixed x]) = .ok merged ↔
      (∀ y ∈ ys, deepEqual x y = true) ∧ merged = onContacts (fixedOperators x) := by
  have hfirst : mergeStatement operators .empty (fixed x) = .ok (onContacts (fixedOperators x)) :=
    rfl
  have hfold : ∀ merged, (ys.map fixed ++ [fixed x]).foldrM
      (fun stmt merged => mergeStatement operators merged stmt) .empty = .ok merged ↔
        (∀ y ∈ ys, deepEqual x y = true) ∧ merged = onContacts (fixedOperators x) := by
    induction ys with
    | nil =>
      intro merged
      rw [List.map_nil, List.nil_append, List.foldrM_cons, List.foldrM_nil, pure_bind, hfirst,
        Except.ok.injEq]
      exact ⟨fun h => ⟨by simp, h.symm⟩, fun h => h.2.symm⟩
    | cons y ys ih =>
      intro merged
      rw [List.map_cons, List.cons_append, List.foldrM_cons, bind_eq_ok]
      simp only [ih, List.forall_mem_cons]
      constructor
      · rintro ⟨_, ⟨hall, rfl⟩, hstep⟩
        obtain ⟨hxy, rfl⟩ := mergeStatement_fixed.mp hstep
        exact ⟨⟨hxy, hall⟩, rfl⟩
      · rintro ⟨⟨hxy, hall⟩, rfl⟩
        exact ⟨_, ⟨hall, rfl⟩, mergeStatement_fixed.mpr ⟨hxy, rfl⟩⟩
  have hcrit : (ys.map fixed ++ [fixed x]).flatMap PolicyStatement.metadataPolicyCrit = [] := by
    simp [fixed, List.flatMap_eq_nil_iff]
  rw [resolveMetadataPolicy_eq_ok]
  constructor
  · rintro ⟨lookup, hl, -, h⟩
    obtain rfl : operators = lookup := Except.ok.inj (buildOperatorLookup_standard.symm.trans hl)
    exact (hfold merged).mp h
  · intro h
    refine ⟨operators, rfl, ?_, (hfold merged).mpr h⟩
    rw [hcrit]
    rfl

section Necessary

variable {U : Set Json} {x y z : Json}

/-- The law on values that are fixed, from the anchor down, in two orders. -/
theorem OrderIndependent.fixed (hlaw : OrderIndependent U) {x' : Json} {ys ys' : List Json}
    (hperm : (x :: ys).Perm (x' :: ys')) (hU : ∀ w ∈ x :: ys, w ∈ U)
    (h : ∀ w ∈ ys, deepEqual x w = true) : ∀ w ∈ ys', deepEqual x' w = true := by
  have hlists : (ys.map OidFed.fixed ++ [OidFed.fixed x]).Perm
      (ys'.map OidFed.fixed ++ [OidFed.fixed x']) := by
    have hmap := hperm.map OidFed.fixed
    simp only [List.map_cons] at hmap
    exact (List.perm_append_singleton _ _).trans
      (hmap.trans (List.perm_append_singleton _ _).symm)
  have hmem : ∀ stmt ∈ ys.map OidFed.fixed ++ [OidFed.fixed x], ∃ w ∈ x :: ys,
      OidFed.fixed w = stmt := by
    intro stmt hstmt
    have := (List.perm_append_singleton _ _).mem_iff.mp hstmt
    rw [← List.map_cons] at this
    exact List.mem_map.mp this
  obtain ⟨hiff, -⟩ := hlaw _ _ hlists
    (fun stmt hstmt => by
      obtain ⟨w, hw, rfl⟩ := hmem stmt hstmt
      exact fixed_drawn (hU w hw))
    (fun stmt hstmt => by
      obtain ⟨w, hw, rfl⟩ := hmem stmt hstmt
      exact fixed_plainNames w)
  obtain ⟨merged, hmerged⟩ := hiff.mp ⟨_, resolve_fixed.mpr ⟨h, rfl⟩⟩
  exact (resolve_fixed.mp hmerged).1

theorem OrderIndependent.refl (hlaw : OrderIndependent U) (hx : x ∈ U) :
    deepEqual x x = true := by
  have hok : resolveMetadataPolicy ([].map OidFed.fixed ++ [OidFed.fixed x]) =
      .ok (onContacts (fixedOperators x)) := resolve_fixed.mpr ⟨by simp, rfl⟩
  obtain ⟨-, hsame⟩ := hlaw _ _ (List.Perm.refl ([].map OidFed.fixed ++ [OidFed.fixed x]))
    (by simpa using fixed_drawn hx) (by simpa using fixed_plainNames x)
  have hpolicy := (hsame _ _ hok hok).parameters "openid_relying_party" "contacts"
  have hoperators : Option.Rel SameOperators (some (fixedOperators x)) (some (fixedOperators x)) :=
    hpolicy
  cases hoperators with
  | some h =>
    have hvalue : Option.Rel Alike (some (Json.arr [x])) (some (Json.arr [x])) := h "value"
    cases hvalue with
    | some h =>
      obtain ⟨w, hw, hxw⟩ := h.1 x List.mem_cons_self
      obtain rfl := List.mem_singleton.mp hw
      exact hxw

theorem OrderIndependent.symm (hlaw : OrderIndependent U) (hx : x ∈ U) (hy : y ∈ U)
    (hxy : deepEqual x y = true) : deepEqual y x = true :=
  hlaw.fixed (List.Perm.swap y x []) (by simp [hx, hy]) (by simp [hxy]) x List.mem_cons_self

theorem OrderIndependent.trans (hlaw : OrderIndependent U) (hx : x ∈ U) (hy : y ∈ U) (hz : z ∈ U)
    (hxy : deepEqual x y = true) (hyz : deepEqual y z = true) : deepEqual x z = true :=
  hlaw.fixed (List.Perm.swap x y [z]) (by simp [hx, hy, hz])
    (by simp [hlaw.symm hx hy hxy, hyz]) z (by simp)

end Necessary

/-- Merging is independent of the order, over the values of `U`, exactly when `deepEqual` is an
equivalence on `U`. -/
theorem orderIndependent_iff (U : Set Json) :
    OrderIndependent U ↔ EquivOn deepEqual (fun _ => true) U :=
  ⟨fun hlaw =>
    { refl := fun _ hx => hlaw.refl hx
      symm := fun _ hx _ hy _ _ hxy => hlaw.symm hx hy hxy
      trans := fun _ hx _ hy _ hz _ _ _ hxy hyz => hlaw.trans hx hy hz hxy hyz },
    fun he => orderIndependent_of_domain ⟨U, he⟩⟩

/-- So it is over plain values. -/
theorem orderIndependent_plain : OrderIndependent {a | Plain a} :=
  orderIndependent_of_domain ⟨{a | Plain a}, {
    refl := fun a ha => deepEqual_refl_plain a ha
    symm := fun a ha b hb _ _ h => deepEqual_symm_plain a b ha hb h
    trans := fun a ha b hb c hc _ _ _ h h' => deepEqual_trans_plain a b c ha hb hc h h' }⟩

end OidFed
